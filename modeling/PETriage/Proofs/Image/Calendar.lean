import Mathlib.Algebra.GroupWithZero.Nat
import Mathlib.Data.List.Lex
import PETriage.Image.Timestamp

/-!
# Link times in the calendar

A link time is shown as the date and time of the proleptic Gregorian calendar that lies as many
seconds after the start of 1970. Taking a count of seconds apart loses none of them, a later date
lies after more seconds, and the texts of dates are ordered as the dates are.
-/
namespace PETriage.Image

/-! ## The calendar -/

/-- Every fourth year has a leap day, but of the full centuries only every fourth. -/
def Leap (year : Nat) : Prop := 4 ∣ year ∧ (100 ∣ year → 400 ∣ year)

instance (year : Nat) : Decidable (Leap year) := inferInstanceAs (Decidable (_ ∧ _))

def daysIn (year : Nat) : Nat → Nat
  | 2 => if Leap year then 29 else 28
  | 4 | 6 | 9 | 11 => 30
  | _ => 31

/-- Days from the start of the year 1 to the start of a year. -/
def daysBeforeYear (year : Nat) : Nat :=
  365 * (year - 1) + (year - 1) / 4 - (year - 1) / 100 + (year - 1) / 400

/-- Days from the start of a year to the start of a month. -/
def daysBeforeMonth (year : Nat) : Nat → Nat
  | 0 => 0
  | 1 => 0
  | month + 2 => daysBeforeMonth year (month + 1) + daysIn year (month + 1)

namespace DateTime

structure Valid (d : DateTime) : Prop where
  year : 1 ≤ d.year
  month : 1 ≤ d.month ∧ d.month ≤ 12
  day : 1 ≤ d.day ∧ d.day ≤ daysIn d.year d.month
  hour : d.hour < 24
  minute : d.minute < 60
  second : d.second < 60

/-- Days from the start of the year 1 to the day. -/
def days (d : DateTime) : Nat :=
  daysBeforeYear d.year + daysBeforeMonth d.year d.month + (d.day - 1)

/-- Seconds from the start of the year 1 to the time. -/
def seconds (d : DateTime) : Nat := 86400 * d.days + 3600 * d.hour + 60 * d.minute + d.second

/-- From the year, which weighs most, to the second. -/
def parts (d : DateTime) : List Nat := [d.year, d.month, d.day, d.hour, d.minute, d.second]

end DateTime

/-- The start of 1970. -/
def unixEpoch : DateTime := ⟨1970, 1, 1, 0, 0, 0⟩

variable {year month : Nat} {d e : DateTime}

theorem isLeap_iff : isLeap year = true ↔ Leap year := by
  simp only [isLeap, Leap, Bool.and_eq_true, Bool.or_eq_true, beq_iff_eq, bne_iff_ne]
  omega

theorem daysBeforeMonth_succ (h : 1 ≤ month) (year : Nat) :
    daysBeforeMonth year (month + 1) = daysBeforeMonth year month + daysIn year month := by
  obtain ⟨k, rfl⟩ : ∃ k, month = k + 1 := ⟨month - 1, by omega⟩
  rfl

theorem daysBeforeMonth_mono (year : Nat) {m n : Nat} (h : m ≤ n) :
    daysBeforeMonth year m ≤ daysBeforeMonth year n := by
  induction h with
  | refl => exact Nat.le_refl _
  | @step n h ih =>
    cases n with
    | zero => exact ih
    | succ n => exact Nat.le_trans ih (Nat.le_add_right _ _)

theorem daysBeforeMonth_end (year : Nat) : daysBeforeMonth year 13 = yearLength year := by
  by_cases h : Leap year
  · simp [daysBeforeMonth, daysIn, yearLength, isLeap_iff, h]
  · simp [daysBeforeMonth, daysIn, yearLength, isLeap_iff, h]

theorem daysBeforeYear_succ (h : 1 ≤ year) :
    daysBeforeYear (year + 1) = daysBeforeYear year + yearLength year := by
  obtain ⟨k, rfl⟩ : ∃ k, year = k + 1 := ⟨year - 1, by omega⟩
  have hcentury : 100 ∣ k + 1 → 4 ∣ k + 1 := Nat.dvd_trans (by decide)
  have hfourth : 400 ∣ k + 1 → 100 ∣ k + 1 := Nat.dvd_trans (by decide)
  have hle : k / 100 ≤ k / 4 := Nat.div_le_div_left (by decide) (by decide)
  simp only [daysBeforeYear, yearLength, isLeap_iff, Leap, Nat.add_sub_cancel, Nat.succ_div]
  generalize k / 4 = fourths, k / 100 = centuries, k / 400 = cycles at hle ⊢
  by_cases h4 : 4 ∣ k + 1 <;> by_cases h100 : 100 ∣ k + 1 <;> by_cases h400 : 400 ∣ k + 1 <;>
    simp only [h4, h100, h400, true_implies, false_implies, and_true, and_false, if_true,
      if_false] at hcentury hfourth ⊢ <;> omega

theorem daysBeforeYear_mono {m n : Nat} (hm : 1 ≤ m) (h : m ≤ n) :
    daysBeforeYear m ≤ daysBeforeYear n := by
  induction h with
  | refl => exact Nat.le_refl _
  | @step n h ih =>
    rw [daysBeforeYear_succ (Nat.le_trans hm h)]
    exact Nat.le_trans ih (Nat.le_add_right _ _)

theorem monthLengths_eq (year : Nat) :
    monthLengths year = (List.range' 1 12).map (daysIn year) := by
  have hleap : (if isLeap year then 29 else 28) = daysIn year 2 := by
    simp only [daysIn, isLeap_iff]
  rw [monthLengths, hleap]
  rfl

/-! ## Taking seconds apart -/

theorem splitYear_spec (year days : Nat) (h : 1 ≤ year) :
    year ≤ (splitYear year days).1 ∧
    (splitYear year days).2 < yearLength (splitYear year days).1 ∧
    daysBeforeYear (splitYear year days).1 + (splitYear year days).2 =
      daysBeforeYear year + days := by
  induction year, days using splitYear.induct with
  | case1 year days hlt =>
    rw [splitYear, if_pos hlt]
    exact ⟨Nat.le_refl _, hlt, rfl⟩
  | case2 year days hlt ih =>
    rw [splitYear, if_neg hlt]
    obtain ⟨hyear, hrest, hsum⟩ := ih (by omega)
    have hsucc := daysBeforeYear_succ h
    exact ⟨by omega, hrest, by omega⟩

/-- The months that are left of a year hold the days that are left of it. -/
theorem splitMonth_spec (year count month days : Nat) (h : 1 ≤ month)
    (hdays : daysBeforeMonth year month + days < daysBeforeMonth year (month + count)) :
    let found := splitMonth ((List.range' month count).map (daysIn year)) month days
    month ≤ found.1 ∧ found.1 < month + count ∧ 1 ≤ found.2 ∧ found.2 ≤ daysIn year found.1 ∧
      daysBeforeMonth year found.1 + (found.2 - 1) = daysBeforeMonth year month + days := by
  induction count generalizing month days with
  | zero =>
    rw [Nat.add_zero] at hdays
    omega
  | succ count ih =>
    rw [List.range'_succ, List.map_cons, splitMonth]
    split
    · rename_i hlt
      exact ⟨Nat.le_refl _, by omega, Nat.le_add_left _ _, hlt, rfl⟩
    · have hsucc := daysBeforeMonth_succ h year
      obtain ⟨hfirst, hlast, hpos, hday, hsum⟩ :=
        ih (month + 1) (days - daysIn year month) (by omega)
          (by rw [Nat.add_assoc, Nat.add_comm 1]; omega)
      exact ⟨by omega, by omega, hpos, hday, by omega⟩

namespace DateTime

theorem ofSeconds_spec (n : Nat) : (ofSeconds n).Valid ∧ (ofSeconds n).seconds = n := by
  obtain ⟨hyear, hrest, hdays⟩ := splitYear_spec 1 (n / 86400) (Nat.le_refl 1)
  rw [ofSeconds]
  generalize splitYear 1 (n / 86400) = found at hyear hrest hdays ⊢
  obtain ⟨year, dayOfYear⟩ := found
  have hmonths := splitMonth_spec year 12 1 dayOfYear (Nat.le_refl 1) (by
    rw [daysBeforeMonth_end, daysBeforeMonth, Nat.zero_add]
    exact hrest)
  rw [← monthLengths_eq] at hmonths
  dsimp only at hyear hmonths hdays ⊢
  generalize splitMonth (monthLengths year) 1 dayOfYear = found at hmonths ⊢
  obtain ⟨month, day⟩ := found
  dsimp only at hmonths ⊢
  obtain ⟨hfirst, hlast, hpos, hday, hsum⟩ := hmonths
  constructor
  · exact ⟨hyear, ⟨hfirst, Nat.le_of_lt_succ hlast⟩, ⟨hpos, hday⟩,
      show n % 86400 / 3600 < 24 by omega, show n % 86400 / 60 % 60 < 60 by omega,
      show n % 86400 % 60 < 60 by omega⟩
  · have hcount : daysBeforeYear year + daysBeforeMonth year month + (day - 1) = n / 86400 := by
      rw [Nat.add_assoc, hsum, daysBeforeMonth, Nat.zero_add, hdays, daysBeforeYear]
      exact Nat.zero_add _
    simp only [seconds, days]
    rw [hcount]
    omega

/-! ## Dates in order -/

theorem Valid.day_lt (h : d.Valid) :
    daysBeforeMonth d.year d.month + (d.day - 1) < daysBeforeMonth d.year (d.month + 1) := by
  have hsucc := daysBeforeMonth_succ h.month.1 d.year
  have hday := h.day
  omega

theorem Valid.days_lt (h : d.Valid) : d.days < daysBeforeYear (d.year + 1) := by
  have hyear := daysBeforeYear_succ h.year
  have hmonth := h.day_lt
  have hend := daysBeforeMonth_mono d.year (show d.month + 1 ≤ 13 from Nat.succ_le_succ h.month.2)
  rw [daysBeforeMonth_end] at hend
  rw [days]
  omega

theorem le_days (d : DateTime) : daysBeforeYear d.year ≤ d.days := by
  rw [days, Nat.add_assoc]
  exact Nat.le_add_right _ _

/-- What is decided by the year, else by the month, else by the day. -/
theorem Valid.days_lt_days (hd : d.Valid)
    (h : [d.year, d.month, d.day] < [e.year, e.month, e.day]) : d.days < e.days := by
  simp only [List.cons_lt_cons_iff, List.not_lt_nil, and_false, or_false] at h
  rcases h with hyear | ⟨hyear, hmonth | ⟨hmonth, hday⟩⟩
  · calc
      d.days < daysBeforeYear (d.year + 1) := hd.days_lt
      _ ≤ daysBeforeYear e.year := daysBeforeYear_mono (Nat.succ_le_succ (Nat.zero_le _)) hyear
      _ ≤ e.days := e.le_days
  · have hlt := hd.day_lt
    have hle := daysBeforeMonth_mono d.year (show d.month + 1 ≤ e.month from hmonth)
    rw [days, days, ← hyear]
    omega
  · have hpos := hd.day.1
    rw [days, days, ← hyear, ← hmonth]
    omega

theorem Valid.seconds_lt_seconds (hd : d.Valid) (h : d.parts < e.parts) :
    d.seconds < e.seconds := by
  have hdays (h : [d.year, d.month, d.day] < [e.year, e.month, e.day]) := hd.days_lt_days h
  obtain ⟨-, -, -, hhour, hminute, hsecond⟩ := hd
  simp only [parts, List.cons_lt_cons_iff, List.not_lt_nil, and_false, or_false] at h hdays
  have hsame (h : d.year = e.year ∧ d.month = e.month ∧ d.day = e.day) : d.days = e.days := by
    rw [days, days, h.1, h.2.1, h.2.2]
  rw [seconds, seconds]
  grind

theorem Valid.parts_lt_parts (he : e.Valid) (h : d.seconds < e.seconds) : d.parts < e.parts := by
  rcases lt_trichotomy d.parts e.parts with hlt | heq | hgt
  · exact hlt
  · simp only [parts, List.cons.injEq, and_true] at heq
    simp only [seconds, days, heq, Nat.lt_irrefl] at h
  · exact absurd (he.seconds_lt_seconds hgt) (Nat.lt_asymm h)

theorem Valid.eq_of_seconds (hd : d.Valid) (he : e.Valid) (h : d.seconds = e.seconds) : d = e := by
  rcases lt_trichotomy d.parts e.parts with hlt | heq | hgt
  · exact absurd h (Nat.ne_of_lt (hd.seconds_lt_seconds hlt))
  · simp only [parts, List.cons.injEq, and_true] at heq
    cases d
    cases e
    simpa using heq
  · exact absurd h.symm (Nat.ne_of_lt (he.seconds_lt_seconds hgt))

end DateTime

/-! ## Digits in columns -/

/-- The decimal digits of the lowest places of a count, zeros where it has none. -/
def lastDigits : Nat → Nat → List Char
  | 0, _ => []
  | width + 1, n => lastDigits width (n / 10) ++ [Nat.digitChar (n % 10)]

theorem length_lastDigits (width n : Nat) : (lastDigits width n).length = width := by
  induction width generalizing n with
  | zero => rfl
  | succ width ih => rw [lastDigits, List.length_append, ih, List.length_singleton]

theorem lastDigits_zero (width : Nat) : lastDigits width 0 = List.replicate width '0' := by
  induction width with
  | zero => rfl
  | succ width ih =>
    rw [lastDigits, ih, List.replicate_succ']
    rfl

theorem leftpad_toDigits (width : Nat) {n : Nat} (h : n < 10 ^ (width + 1)) :
    (Nat.toDigits 10 n).leftpad (width + 1) '0' = lastDigits (width + 1) n := by
  induction width generalizing n with
  | zero =>
    have hlt : n < 10 := h
    rw [Nat.toDigits_of_lt_base hlt, lastDigits, Nat.mod_eq_of_lt hlt]
    rfl
  | succ width ih =>
    rw [lastDigits]
    by_cases hlt : n < 10
    · rw [Nat.toDigits_of_lt_base hlt, Nat.div_eq_of_lt hlt, lastDigits_zero,
        Nat.mod_eq_of_lt hlt]
      rfl
    · have hdiv : n / 10 < 10 ^ (width + 1) := by omega
      rw [Nat.toDigits_of_base_le (by decide) (by omega), ← ih hdiv]
      simp only [List.leftpad, List.length_append, List.length_singleton, List.append_assoc,
        Nat.add_sub_add_right]

theorem digitChar_lt : ∀ a < 10, ∀ b < 10, a < b → Nat.digitChar a < Nat.digitChar b := by decide

/-- Texts of one length are compared before what follows them. -/
theorem append_lt_append {xs ys : List Char} (hlen : xs.length = ys.length) (h : xs < ys)
    (us vs : List Char) : xs ++ us < ys ++ vs := by
  induction xs generalizing ys with
  | nil =>
    rw [List.eq_nil_of_length_eq_zero hlen.symm] at h
    exact absurd h (List.not_lt_nil _)
  | cons x xs ih =>
    obtain _ | ⟨y, ys⟩ := ys
    · exact absurd hlen (Nat.succ_ne_zero _)
    · rw [List.cons_append, List.cons_append, List.cons_lt_cons_iff]
      rcases List.cons_lt_cons_iff.1 h with hlt | ⟨heq, hlt⟩
      · exact .inl hlt
      · exact .inr ⟨heq, ih (Nat.succ.inj hlen) hlt⟩

theorem lastDigits_lt {width m n : Nat} (h : m < n) (hn : n < 10 ^ width) :
    lastDigits width m < lastDigits width n := by
  induction width generalizing m n with
  | zero => omega
  | succ width ih =>
    rw [lastDigits, lastDigits]
    rcases Nat.lt_or_ge (m / 10) (n / 10) with hlt | hge
    · exact append_lt_append (by rw [length_lastDigits, length_lastDigits])
        (ih hlt (by omega)) _ _
    · rw [show m / 10 = n / 10 by omega]
      exact List.append_left_lt (List.cons_lt_cons_iff.2 (.inl
        (digitChar_lt _ (Nat.mod_lt _ (by decide)) _ (Nat.mod_lt _ (by decide)) (by omega))))

/-- Counts in columns: each has its width and is followed by its mark. -/
def render : List (Nat × List Char) → List Nat → List Char
  | (width, mark) :: columns, n :: ns => lastDigits width n ++ (mark ++ render columns ns)
  | _, _ => []

def Fits (columns : List (Nat × List Char)) (ns : List Nat) : Prop :=
  List.Forall₂ (fun column n => n < 10 ^ column.1) columns ns

theorem length_render {columns : List (Nat × List Char)} {ns : List Nat} (h : Fits columns ns) :
    (render columns ns).length = (columns.map fun column => column.1 + column.2.length).sum := by
  induction h with
  | nil => rfl
  | cons _ _ ih =>
    simp only [render, List.length_append, length_lastDigits, ih, List.map_cons, List.sum_cons,
      Nat.add_assoc]

theorem render_lt {columns : List (Nat × List Char)} {ms ns : List Nat} (hms : Fits columns ms)
    (hns : Fits columns ns) (h : ms < ns) : render columns ms < render columns ns := by
  induction hms generalizing ns with
  | nil =>
    cases hns
    exact absurd h (List.not_lt_nil _)
  | cons hm hms ih =>
    cases hns with
    | cons hn hns =>
      rw [render, render]
      rcases List.cons_lt_cons_iff.1 h with hlt | ⟨rfl, hlt⟩
      · exact append_lt_append (by rw [length_lastDigits, length_lastDigits])
          (lastDigits_lt hlt hn) _ _
      · exact List.append_left_lt (List.append_left_lt (ih hns hlt))

/-! ## Link times as texts -/

/-- The form `YYYY-MM-DDTHH:MM:SS.000Z`. -/
def DateTime.columns : List (Nat × List Char) :=
  [(4, ['-']), (2, ['-']), (2, ['T']), (2, [':']), (2, [':']), (2, ['.', '0', '0', '0', 'Z'])]

theorem daysIn_le (year month : Nat) : daysIn year month ≤ 31 := by
  unfold daysIn
  split
  · split <;> decide
  all_goals decide

namespace DateTime

theorem Valid.two_digits (h : d.Valid) :
    d.month < 10 ^ 2 ∧ d.day < 10 ^ 2 ∧ d.hour < 10 ^ 2 ∧ d.minute < 10 ^ 2 ∧
      d.second < 10 ^ 2 := by
  have hday := Nat.le_trans h.day.2 (daysIn_le _ _)
  obtain ⟨-, hmonth, -, hhour, hminute, hsecond⟩ := h
  omega

theorem Valid.fits (h : d.Valid) (hlast : d.year ≤ 9999) : Fits DateTime.columns d.parts := by
  obtain ⟨hmonth, hday, hhour, hminute, hsecond⟩ := h.two_digits
  exact .cons (Nat.lt_succ_of_le hlast) (.cons hmonth (.cons hday (.cons hhour
    (.cons hminute (.cons hsecond .nil)))))

/-- A year of four digits is not padded. -/
theorem Valid.text_eq (h : d.Valid) (hfirst : 1000 ≤ d.year) (hlast : d.year ≤ 9999) :
    d.text = String.ofList (render DateTime.columns d.parts) := by
  obtain ⟨hmonth, hday, hhour, hminute, hsecond⟩ := h.two_digits
  have hyear : Nat.toDigits 10 d.year = lastDigits 4 d.year := by
    have hlen : 3 < (Nat.toDigits 10 d.year).length := by
      rw [← Nat.not_le, Nat.length_toDigits_le_iff (by decide) (by decide)]
      omega
    rw [← leftpad_toDigits 3 (Nat.lt_succ_of_le hlast), List.leftpad,
      Nat.sub_eq_zero_of_le hlen]
    rfl
  simp only [text, twoDigits, hyear, leftpad_toDigits 1 hmonth, leftpad_toDigits 1 hday,
    leftpad_toDigits 1 hhour, leftpad_toDigits 1 hminute, leftpad_toDigits 1 hsecond, columns,
    parts, render, List.append_assoc, List.cons_append, List.nil_append, List.append_nil]

end DateTime

/-- A count that is shown is that of one date, whose year has four digits. -/
theorem timestampText_shown {t : Nat} (hpos : 1 ≤ t) (hlast : t ≤ lastSecond) :
    ∃ d : DateTime, d.Valid ∧ d.seconds = unixEpoch.seconds + t ∧ Fits DateTime.columns d.parts ∧
      timestampText t = String.ofList (render DateTime.columns d.parts) := by
  obtain ⟨hd, hseconds⟩ := DateTime.ofSeconds_spec (t + epoch)
  generalize hofSeconds : DateTime.ofSeconds (t + epoch) = d at hd hseconds
  have hepoch : unixEpoch.seconds = epoch := by decide
  have hfirstYear : 1970 ≤ d.year := by
    by_contra hbefore
    have hlt : d.seconds < unixEpoch.seconds :=
      hd.seconds_lt_seconds (List.cons_lt_cons_iff.2 (.inl (Nat.lt_of_not_le hbefore)))
    omega
  have hlastYear : d.year ≤ 9999 := by
    by_contra hafter
    have hvalid : (⟨9999, 12, 31, 23, 59, 59⟩ : DateTime).Valid :=
      ⟨by decide, by decide, by decide, by decide, by decide, by decide⟩
    have hlt : (⟨9999, 12, 31, 23, 59, 59⟩ : DateTime).seconds < d.seconds :=
      hvalid.seconds_lt_seconds (List.cons_lt_cons_iff.2 (.inl (Nat.lt_of_not_le hafter)))
    have hend : (⟨9999, 12, 31, 23, 59, 59⟩ : DateTime).seconds = lastSecond + epoch := by decide
    omega
  refine ⟨d, hd, by omega, hd.fits hlastYear, ?_⟩
  rw [← hd.text_eq (by omega) hlastYear, ← hofSeconds, timestampText, if_neg (by omega)]
  rfl

/-- Exactly zero and the counts past the year 9999 are unknown; every other count is shown as
the one date that lies so many seconds after the start of 1970, in columns. So the text tells the
count, and a later count has the later text. -/
theorem timestampText_exact :
    (∀ t : Nat, timestampText t = unknown ↔ t = 0 ∨ 253402300799 < t) ∧
    (∀ t : Nat, 1 ≤ t → t ≤ 253402300799 → ∃ d : DateTime,
      (∀ e : DateTime, e.Valid ∧ e.seconds = unixEpoch.seconds + t ↔ e = d) ∧
      timestampText t = String.ofList (render DateTime.columns d.parts) ∧
      (timestampText t).length = 24) ∧
    (∀ s t : Nat, 1 ≤ s → s < t → t ≤ 253402300799 → timestampText s < timestampText t) ∧
    (∀ s t : Nat, 1 ≤ s → s ≤ 253402300799 → 1 ≤ t → t ≤ 253402300799 →
      timestampText s = timestampText t → s = t) := by
  have hlength {t : Nat} (hpos : 1 ≤ t) (hlast : t ≤ 253402300799) :
      (timestampText t).length = 24 := by
    obtain ⟨d, -, -, hfits, htext⟩ := timestampText_shown hpos hlast
    rw [htext, String.length_ofList, length_render hfits]
    rfl
  have hlt {s t : Nat} (hpos : 1 ≤ s) (hst : s < t) (hlast : t ≤ 253402300799) :
      timestampText s < timestampText t := by
    have hle := Nat.le_of_lt (Nat.lt_of_lt_of_le hst hlast)
    obtain ⟨d, -, hdseconds, hdfits, hdtext⟩ := timestampText_shown hpos hle
    obtain ⟨e, he, heseconds, hefits, hetext⟩ := timestampText_shown (by omega) hlast
    rw [hdtext, hetext, String.lt_iff, String.toList_ofList, String.toList_ofList]
    exact render_lt hdfits hefits (he.parts_lt_parts (by omega))
  refine ⟨fun t => ⟨fun hunknown => ?_, fun hrange => ?_⟩, fun t hpos hlast => ?_,
    fun s t hpos hst hlast => hlt hpos hst hlast, fun s t hspos hslast htpos htlast heq => ?_⟩
  · by_contra hrange
    have hlen := hlength (t := t) (by omega) (by omega)
    rw [hunknown] at hlen
    exact absurd hlen (by decide)
  · exact if_pos (by simp only [lastSecond]; omega)
  · obtain ⟨d, hd, hseconds, -, htext⟩ := timestampText_shown hpos hlast
    refine ⟨d, fun e => ⟨fun ⟨he, heseconds⟩ => ?_, ?_⟩, htext, hlength hpos hlast⟩
    · exact he.eq_of_seconds hd (heseconds.trans hseconds.symm)
    · rintro rfl
      exact ⟨hd, hseconds⟩
  · rcases Nat.lt_trichotomy s t with hst | hst | hst
    · exact absurd (heq ▸ hlt hspos hst htlast) (String.lt_irrefl _)
    · exact hst
    · exact absurd (heq ▸ hlt htpos hst hslast) (String.lt_irrefl _)

/-- The leap day of a century's last year. -/
theorem timestampText_leapDay : timestampText 951782400 = "2000-02-29T00:00:00.000Z" := by
  obtain ⟨d, hd, htext, -⟩ := timestampText_exact.2.1 951782400 (by decide) (by decide)
  have hleap : (⟨2000, 2, 29, 0, 0, 0⟩ : DateTime) = d :=
    (hd _).1 ⟨⟨by decide, by decide, by decide, by decide, by decide, by decide⟩, by decide⟩
  exact htext.trans (hleap ▸ by decide)

end PETriage.Image
