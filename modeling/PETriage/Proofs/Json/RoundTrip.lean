import Mathlib.Tactic.IntervalCases
import PETriage.Proofs.Json.Display
import PETriage.Proofs.Json.Strings
import PETriage.Proofs.Number.Reread

/-!
# Values read back from their compact text

A value without binary numbers is read from its compact text as it was. The induction is on what
makes the value restorable; the reader needs as much fuel as the text of a value is long, and one
step more for the inside of a list or of an object.
-/
namespace PETriage

theorem Keyed.put_of_not_mem {κ : Type} [DecidableEq κ] {o : Keyed κ} {key : κ} (v : Value)
    (h : key ∉ o.map Prod.fst) : o.put key v = o ++ [(key, v)] := by
  induction o with
  | nil => rfl
  | cons f o ih =>
    obtain ⟨k, w⟩ := f
    rw [List.map_cons, List.mem_cons, not_or] at h
    rw [put, if_neg (Ne.symm h.1), ih h.2]
    rfl

namespace Json

open Number (Writable decimalDigitLimit)

variable {c : Char} {n depth level fuel : Nat} {v : Value} {cs rest : List Char}

/-- What can be read back through brackets to a given depth: there are no binary numbers, no numbers
too long to be written, no texts with single units and no two fields of one name. -/
inductive Restorable : Nat → Value → Prop
  | null {depth : Nat} : Restorable depth .null
  | bool {depth : Nat} (b : Bool) : Restorable depth (.bool b)
  | int {depth : Nat} {n : Int} (h : Writable n) : Restorable depth (.int n)
  | str {depth : Nat} {t : Text} (h : t.IsWhole) : Restorable depth (.str t)
  | list {depth : Nat} {items : List Value} (h : ∀ v ∈ items, Restorable depth v) :
    Restorable (depth + 1) (.list items)
  | object {depth : Nat} {fields : Fields} (hk : (fields.map Prod.fst).Nodup)
    (hw : ∀ f ∈ fields, f.1.IsWhole) (hv : ∀ f ∈ fields, Restorable depth f.2) :
    Restorable (depth + 1) (.object fields)

/-! ## What stands around a value -/

/-- After a value in a list or in an object, or at the end of the text. -/
def Ends (rest : List Char) : Prop :=
  ∀ c cs, rest = c :: cs → c = ',' ∨ c = ']' ∨ c = '\x7d'

theorem ends_nil : Ends [] := nofun

theorem ends_cons (h : c = ',' ∨ c = ']' ∨ c = '\x7d') (cs : List Char) : Ends (c :: cs) := by
  rintro _ _ ⟨⟩
  exact h

theorem skipBlanks_cons (h : isJsonBlank c = false) (cs : List Char) :
    skipBlanks (c :: cs) = c :: cs := by
  rw [skipBlanks, List.dropWhile_cons_of_neg (by simp [h])]

theorem skipBlanks_of_ends (h : Ends rest) : skipBlanks rest = rest := by
  cases rest with
  | nil => rfl
  | cons c cs => rcases h c cs rfl with rfl | rfl | rfl <;> rfl

/-! ## Numbers -/

theorem fraction_of_ends (h : Ends rest) : fraction rest = ([], rest) := by
  cases rest with
  | nil => rfl
  | cons c cs => rcases h c cs rfl with rfl | rfl | rfl <;> rfl

theorem exponent_of_ends (h : Ends rest) : exponent rest = (none, rest) := by
  cases rest with
  | nil => rfl
  | cons c cs => rcases h c cs rfl with rfl | rfl | rfl <;> rfl

theorem takeWhile_digits_of_ends (h : Ends rest) :
    rest.takeWhile Char.isDigit = [] ∧ rest.dropWhile Char.isDigit = rest := by
  cases rest with
  | nil => exact ⟨rfl, rfl⟩
  | cons c cs => rcases h c cs rfl with rfl | rfl | rfl <;> exact ⟨rfl, rfl⟩

theorem wholePart?_toDigits (n : Nat) (h : Ends rest) :
    wholePart? (Nat.toDigits 10 n ++ rest) = some (Nat.toDigits 10 n, rest) := by
  obtain ⟨htake, hdrop⟩ := takeWhile_digits_of_ends h
  cases Nat.eq_zero_or_pos n with
  | inl hz =>
    subst hz
    rfl
  | inr hpos =>
    obtain ⟨d, ds, hd, hlt, hm⟩ := Number.exists_toDigits_of_pos hpos
    have hall : ∀ c ∈ (d :: ds).map Nat.digitChar, c.isDigit = true := by
      intro c hc
      obtain ⟨e, he, rfl⟩ := List.mem_map.1 hc
      exact Number.isDigit_digitChar e (hlt e he)
    have hfirst : Nat.digitChar d ≠ '0' := by
      have hzero := Number.digitChar_eq_zero_iff d (hlt d List.mem_cons_self)
      rw [beq_eq_beq] at hzero
      exact fun h0 => Nat.ne_of_gt hd (hzero.1 h0)
    rw [hm, wholePart?]
    · rw [List.takeWhile_append_of_pos hall, List.dropWhile_append_of_pos hall, htake, hdrop,
        List.append_nil]
      rfl
    · exact fun more h0 => hfirst (List.cons.inj h0).1

theorem valueOf_toDigits (n : Nat) : Number.valueOf (Nat.toDigits 10 n) = n := by
  obtain ⟨ds, -, hd, hm, hv⟩ := Number.toDigits_eq_map (by decide : 1 < 10) n
  rw [hm, Number.valueOf_map_digitChar hd, hv]

theorem number_toDigits (negative : Bool) (hn : (Nat.toDigits 10 n).length ≤ decimalDigitLimit)
    (h : Ends rest) : number (some decimalDigitLimit) negative (Nat.toDigits 10 n ++ rest) =
      .ok (.int (Number.applySign negative n), rest) := by
  rw [number, wholePart?_toDigits n h]
  simp [fraction_of_ends h, exponent_of_ends h, valueOf_toDigits, hn]

/-! ## Reading back -/

def limitsAt (depth : Nat) : Limits := ⟨some decimalDigitLimit, some depth⟩

/-- From its text, and with as much fuel as that is long, the value is read as it was. -/
def ReadsBack (depth : Nat) (v : Value) : Prop :=
  ∀ (level fuel : Nat) (rest : List Char), (print .compact level v).length ≤ fuel → Ends rest →
    value (limitsAt depth) fuel (print .compact level v ++ rest) = .ok (v, rest)

theorem value_digit (limits : Limits) (fuel : Nat) (cs : List Char) : ∀ d < 10,
    value limits (fuel + 1) (Nat.digitChar d :: cs) =
      number limits.digits false (Nat.digitChar d :: cs) := by
  intro d hd
  interval_cases d <;> rfl

theorem value_minus (limits : Limits) (fuel : Nat) (cs : List Char) : ∀ d < 10,
    value limits (fuel + 1) ('-' :: Nat.digitChar d :: cs) =
      number limits.digits true (Nat.digitChar d :: cs) := by
  intro d hd
  interval_cases d <;> rfl

theorem exists_digit (n : Nat) : ∃ d cs, d < 10 ∧ Nat.toDigits 10 n = Nat.digitChar d :: cs := by
  obtain ⟨ds, hne, hd, hm, -⟩ := Number.toDigits_eq_map (by decide : 1 < 10) n
  cases ds with
  | nil => exact absurd rfl hne
  | cons d ds => exact ⟨d, _, hd d List.mem_cons_self, hm⟩

theorem toList_decimal (n : Int) : (Number.decimal n).toList =
    (if n < 0 then ['-'] else []) ++ Nat.toDigits 10 n.natAbs := by
  rw [Number.decimal]
  by_cases hn : n < 0
  · rw [if_pos hn, if_pos hn]
    simp only [String.toList_append, String.toList_ofList]
    rfl
  · rw [if_neg hn, if_neg hn, String.toList_ofList]
    rfl

/-- A value starts with a character that is not passed over and closes nothing. -/
theorem exists_print_cons (level : Nat) (h : Restorable depth v) :
    ∃ c cs, print .compact level v = c :: cs ∧ isJsonBlank c = false ∧ c ≠ ']' := by
  cases h with
  | null => exact ⟨_, _, by rw [print], rfl, by decide⟩
  | bool b => cases b <;> exact ⟨_, _, by rw [print], rfl, by decide⟩
  | @int _ n h =>
    obtain ⟨d, cs, hd, hcs⟩ := exists_digit n.natAbs
    rw [print, toList_decimal, hcs]
    by_cases hn : n < 0
    · rw [if_pos hn]
      exact ⟨_, _, rfl, rfl, by decide⟩
    · rw [if_neg hn]
      refine ⟨_, _, rfl, ?_⟩
      interval_cases d <;> decide
  | str h => exact ⟨_, _, by rw [print, quoted], rfl, by decide⟩
  | @list _ items h => cases items <;> exact ⟨_, _, by rw [print], rfl, by decide⟩
  | @object _ fields hk hw hv => cases fields <;> exact ⟨_, _, by rw [print], rfl, by decide⟩

theorem skipBlanks_print (level : Nat) (h : Restorable depth v) (rest : List Char) :
    skipBlanks (print .compact level v ++ rest) = print .compact level v ++ rest := by
  obtain ⟨c, cs, hcs, hblank, -⟩ := exists_print_cons level h
  rw [hcs, List.cons_append, skipBlanks_cons hblank]

/-- The first step of fuel is there, since no value has an empty text. -/
theorem ReadsBack.of_succ (hr : Restorable depth v)
    (h : ∀ (level fuel : Nat) (rest : List Char), (print .compact level v).length ≤ fuel + 1 →
      Ends rest → value (limitsAt depth) (fuel + 1) (print .compact level v ++ rest) =
        .ok (v, rest)) : ReadsBack depth v := by
  intro level fuel rest hf hends
  obtain ⟨c, cs, hcs, -⟩ := exists_print_cons level hr
  have hpos : 0 < fuel := by
    rw [hcs, List.length_cons] at hf
    omega
  obtain ⟨fuel, rfl⟩ := Nat.exists_eq_add_of_lt hpos
  rw [Nat.zero_add] at hf ⊢
  exact h level fuel rest hf hends

theorem readsBack_int {n : Int} (h : Writable n) : ReadsBack depth (.int n) := by
  refine .of_succ (.int h) fun level fuel rest hf hends => ?_
  obtain ⟨d, cs, hd, hcs⟩ := exists_digit n.natAbs
  have hnumber : ∀ negative,
      number (some decimalDigitLimit) negative (Nat.digitChar d :: (cs ++ rest)) =
        .ok (.int (Number.applySign negative n.natAbs), rest) := by
    intro negative
    have hread := number_toDigits (n := n.natAbs) negative h hends
    rwa [hcs] at hread
  rw [print, toList_decimal, hcs]
  by_cases hn : n < 0
  · rw [if_pos hn]
    refine (value_minus _ fuel _ d hd).trans ((hnumber true).trans ?_)
    rw [Number.applySign, if_pos rfl, Int.ofNat_natAbs_of_nonpos (Int.le_of_lt hn), Int.neg_neg]
  · rw [if_neg hn]
    refine (value_digit _ fuel _ d hd).trans ((hnumber false).trans ?_)
    rw [Number.applySign, if_neg Bool.false_ne_true, Int.natAbs_of_nonneg (Int.not_lt.1 hn)]

theorem length_le_flatMap (cs : List Char) : cs.length ≤ (cs.flatMap escapeChar).length := by
  induction cs with
  | nil => exact Nat.le_refl 0
  | cons c cs ih =>
    have hpos : 0 < (escapeChar c).length := by
      cases hshape : escapeChar c with
      | nil =>
        have h := shape_escapeChar c
        rw [hshape] at h
        cases h
      | cons e es => exact Nat.succ_pos _
    rw [List.flatMap_cons, List.length_append, List.length_cons]
    omega

theorem quoted_ofString (s : String) :
    quoted s = '"' :: (s.toList.flatMap escapeChar ++ ['"']) := by
  rw [quoted, Text.head_ofString, Text.tail_ofString, List.flatMap_nil, List.append_nil,
    escapePiece]

/-- A text with its quotes is as long as its characters and two more at least. -/
theorem length_quoted (s : String) : s.toList.length + 2 ≤ (quoted s).length := by
  have hle := length_le_flatMap s.toList
  rw [quoted_ofString, List.length_cons, List.length_append, List.length_singleton]
  omega

theorem quoted_append (s : String) (rest : List Char) :
    quoted s ++ rest = '"' :: (s.toList.flatMap escapeChar ++ '"' :: rest) := by
  rw [quoted_ofString, List.cons_append, List.append_assoc]
  rfl

theorem ofPoints_toList (s : String) : Text.ofPoints (s.toList.map .char) = s := by
  rw [← Text.points_ofString, Text.ofPoints_points]

theorem readsBack_str (s : String) : ReadsBack depth (.str s) := by
  refine .of_succ (.str (Text.isWhole_ofString s)) fun level fuel rest hf hends => ?_
  have hlength := length_quoted s
  rw [print] at hf ⊢
  rw [quoted_append, value, string?_flatMap (by omega)]
  simp only [ofPoints_toList]

/-! ## Lists -/

theorem print_list_cons (level : Nat) (v : Value) (vs : List Value) :
    print .compact level (.list (v :: vs)) =
      '[' :: (print .compact (level + 1) v ++ printItems .compact (level + 1) vs ++ [']']) := by
  simp [print, Layout.before]

theorem printItems_cons (level : Nat) (v : Value) (vs : List Value) :
    printItems .compact level (v :: vs) =
      ',' :: (print .compact level v ++ printItems .compact level vs) := by
  simp [printItems, Layout.before]

theorem ends_printItems (level : Nat) (vs : List Value) (rest : List Char) :
    Ends (printItems .compact level vs ++ ']' :: rest) := by
  cases vs with
  | nil =>
    rw [printItems]
    exact ends_cons (.inr (.inl rfl)) _
  | cons w ws =>
    rw [printItems_cons]
    exact ends_cons (.inl rfl) _

theorem items_readsBack {vs : List Value} (level fuel : Nat) (rest : List Char)
    (hr : ∀ w ∈ v :: vs, Restorable depth w) (h : ∀ w ∈ v :: vs, ReadsBack depth w)
    (hf : (print .compact level v ++ printItems .compact level vs).length < fuel) :
    items (limitsAt depth) fuel
      (print .compact level v ++ (printItems .compact level vs ++ ']' :: rest)) =
        .ok (v :: vs, rest) := by
  induction vs generalizing v fuel with
  | nil =>
    obtain ⟨fuel, rfl⟩ : ∃ m, fuel = m + 1 := ⟨fuel - 1, by omega⟩
    have hv := h v List.mem_cons_self level fuel _
      (by rw [List.length_append] at hf; omega) (ends_printItems level [] rest)
    rw [items]
    refine bind_eq_ok_iff.2 ⟨_, hv, ?_⟩
    rw [printItems]
    rfl
  | cons w ws ih =>
    obtain ⟨fuel, rfl⟩ : ∃ m, fuel = m + 1 := ⟨fuel - 1, by omega⟩
    rw [printItems_cons, List.length_append, List.length_cons] at hf
    have hv := h v List.mem_cons_self level fuel _ (by omega) (ends_printItems level (w :: ws) rest)
    have hrest := ih fuel (fun x hx => hr x (List.mem_cons_of_mem _ hx))
      (fun x hx => h x (List.mem_cons_of_mem _ hx)) (by omega)
    have hw := skipBlanks_print level (hr w (by simp))
      (printItems .compact level ws ++ ']' :: rest)
    rw [items]
    refine bind_eq_ok_iff.2 ⟨_, hv, ?_⟩
    rw [printItems_cons, List.cons_append, List.append_assoc]
    show (items _ fuel (skipBlanks _) >>= _) = _
    rw [hw, hrest]
    rfl

theorem readsBack_list {vs : List Value} (hr : ∀ v ∈ vs, Restorable depth v)
    (h : ∀ v ∈ vs, ReadsBack depth v) : ReadsBack (depth + 1) (.list vs) := by
  refine .of_succ (.list hr) fun level fuel rest hf hends => ?_
  have hinner : (limitsAt (depth + 1)).inner = .ok (limitsAt depth) := rfl
  cases vs with
  | nil =>
    rw [print]
    rfl
  | cons v vs =>
    rw [print_list_cons] at hf ⊢
    rw [List.length_cons, List.length_append, List.length_singleton] at hf
    have hitems := items_readsBack (level + 1) fuel rest hr h (by omega)
    obtain ⟨c, cs, hcs, hblank, hclose⟩ := exists_print_cons (level + 1) (hr v List.mem_cons_self)
    rw [List.cons_append, List.append_assoc, List.append_assoc, value, hinner]
    have hskip := skipBlanks_print (level + 1) (hr v List.mem_cons_self)
      (printItems .compact (level + 1) vs ++ ']' :: rest)
    refine bind_eq_ok_iff.2 ⟨_, rfl, ?_⟩
    split
    · rename_i more hmore
      rw [List.singleton_append, hskip, hcs] at hmore
      exact absurd (List.cons.inj hmore).1 hclose
    · rw [List.singleton_append, hskip, hitems]
      rfl

/-! ## Objects -/

def printField (level : Nat) (f : Text × Value) : List Char :=
  quoted f.1 ++ ':' :: print .compact level f.2

theorem print_object_cons (level : Nat) (f : Text × Value) (fs : Fields) :
    print .compact level (.object (f :: fs)) = '\x7b' ::
      (printField (level + 1) f ++ printFields .compact (level + 1) fs ++ ['\x7d']) := by
  simp [print, Layout.before, Layout.colon, printField]

theorem printFields_cons (level : Nat) (f : Text × Value) (fs : Fields) :
    printFields .compact level (f :: fs) =
      ',' :: (printField level f ++ printFields .compact level fs) := by
  simp [printFields, Layout.before, Layout.colon, printField]

theorem ends_printFields (level : Nat) (fs : Fields) (rest : List Char) :
    Ends (printFields .compact level fs ++ '\x7d' :: rest) := by
  cases fs with
  | nil =>
    rw [printFields]
    exact ends_cons (.inr (.inr rfl)) _
  | cons g gs =>
    rw [printFields_cons]
    exact ends_cons (.inl rfl) _

theorem printField_append (level : Nat) (key : String) (v : Value) (rest : List Char) :
    printField level (key, v) ++ rest = '"' :: (key.toList.flatMap escapeChar ++
      '"' :: ':' :: (print .compact level v ++ rest)) := by
  rw [printField, List.append_assoc, quoted_append]
  rfl

theorem exists_printField (level : Nat) (f : Text × Value) :
    ∃ cs, printField level f = '"' :: cs := ⟨_, rfl⟩

theorem skipBlanks_printField (level : Nat) (f : Text × Value) (rest : List Char) :
    skipBlanks (printField level f ++ rest) = printField level f ++ rest := by
  obtain ⟨cs, hcs⟩ := exists_printField level f
  rw [hcs, List.cons_append, skipBlanks_cons rfl]

/-- What the reader does behind a field. -/
def afterField (limits : Limits) (fuel : Nat) (seen : Fields) :
    List Char → Except ReadError (Fields × List Char)
  | '\x7d' :: rest => .ok (seen, rest)
  | ',' :: rest => members limits fuel seen (skipBlanks rest)
  | _ => .error .malformed

theorem members_field {f : Text × Value} {seen : Fields} (hw : f.1.IsWhole)
    (hr : Restorable depth f.2) (h : ReadsBack depth f.2) (hnew : f.1 ∉ seen.map Prod.fst)
    (hf : (printField level f).length ≤ fuel) (hends : Ends rest) :
    members (limitsAt depth) (fuel + 1) seen (printField level f ++ rest) =
      afterField (limitsAt depth) fuel (seen ++ [f]) rest := by
  obtain ⟨key, v⟩ := f
  obtain ⟨key, rfl⟩ : ∃ s : String, key = s := ⟨_, hw.eq_ofString⟩
  have hlength := length_quoted key
  simp only [printField, List.length_append, List.length_cons] at hf
  have hcolon : skipBlanks (':' :: (print .compact level v ++ rest)) =
      ':' :: (print .compact level v ++ rest) := skipBlanks_cons rfl _
  have hput : seen.put (Text.ofPoints (key.toList.map .char)) v = seen ++ [(.ofString key, v)] := by
    rw [ofPoints_toList]
    exact Keyed.put_of_not_mem v hnew
  rw [printField_append, members, string?_flatMap (by omega)]
  dsimp only at hr h ⊢
  simp only [hcolon, skipBlanks_print level hr]
  rw [h level fuel rest (by omega) hends]
  simp only [bind, Except.bind, hput, skipBlanks_of_ends hends]
  rfl

theorem not_mem_of_nodup {f : Text × Value} {fs seen : Fields}
    (h : ((seen ++ f :: fs).map Prod.fst).Nodup) : f.1 ∉ seen.map Prod.fst := by
  intro hmem
  rw [List.map_append, List.map_cons] at h
  exact (List.nodup_append.1 h).2.2 _ hmem _ List.mem_cons_self rfl

theorem members_readsBack {f : Text × Value} {fs : Fields} (level fuel : Nat)
    (rest : List Char) (seen : Fields) (hk : ((seen ++ f :: fs).map Prod.fst).Nodup)
    (hw : ∀ g ∈ f :: fs, g.1.IsWhole)
    (hr : ∀ g ∈ f :: fs, Restorable depth g.2) (h : ∀ g ∈ f :: fs, ReadsBack depth g.2)
    (hf : (printField level f ++ printFields .compact level fs).length < fuel) :
    members (limitsAt depth) fuel seen
      (printField level f ++ (printFields .compact level fs ++ '\x7d' :: rest)) =
        .ok (seen ++ f :: fs, rest) := by
  induction fs generalizing f seen fuel with
  | nil =>
    obtain ⟨fuel, rfl⟩ : ∃ m, fuel = m + 1 := ⟨fuel - 1, by omega⟩
    rw [List.length_append] at hf
    rw [members_field (hw f List.mem_cons_self) (hr f List.mem_cons_self)
      (h f List.mem_cons_self) (not_mem_of_nodup hk) (by omega) (ends_printFields level [] rest)]
    simp only [printFields]
    rfl
  | cons g gs ih =>
    obtain ⟨fuel, rfl⟩ : ∃ m, fuel = m + 1 := ⟨fuel - 1, by omega⟩
    rw [printFields_cons, List.length_append, List.length_cons] at hf
    have hrest := ih fuel (seen ++ [f]) (by simpa using hk)
      (fun x hx => hw x (List.mem_cons_of_mem _ hx))
      (fun x hx => hr x (List.mem_cons_of_mem _ hx))
      (fun x hx => h x (List.mem_cons_of_mem _ hx)) (by omega)
    rw [members_field (hw f List.mem_cons_self) (hr f List.mem_cons_self)
      (h f List.mem_cons_self) (not_mem_of_nodup hk) (by omega)
      (ends_printFields level (g :: gs) rest), printFields_cons, List.cons_append,
      List.append_assoc]
    show members _ fuel (seen ++ [f]) (skipBlanks _) = _
    rw [skipBlanks_printField, hrest, List.append_assoc]
    rfl

theorem readsBack_object {fs : Fields} (hk : (fs.map Prod.fst).Nodup)
    (hw : ∀ f ∈ fs, f.1.IsWhole) (hr : ∀ f ∈ fs, Restorable depth f.2)
    (h : ∀ f ∈ fs, ReadsBack depth f.2) : ReadsBack (depth + 1) (.object fs) := by
  refine .of_succ (.object hk hw hr) fun level fuel rest hf hends => ?_
  have hinner : (limitsAt (depth + 1)).inner = .ok (limitsAt depth) := rfl
  cases fs with
  | nil =>
    rw [print]
    rfl
  | cons f fs =>
    rw [print_object_cons] at hf ⊢
    rw [List.length_cons, List.length_append, List.length_singleton] at hf
    have hmembers := members_readsBack (level + 1) fuel rest [] hk hw hr h (by omega)
    have hskip := skipBlanks_printField (level + 1) f
      (printFields .compact (level + 1) fs ++ '\x7d' :: rest)
    rw [List.cons_append, List.append_assoc, List.append_assoc, value, hinner]
    refine bind_eq_ok_iff.2 ⟨_, rfl, ?_⟩
    split
    · rename_i more hmore
      obtain ⟨cs, hcs⟩ := exists_printField (level + 1) f
      rw [List.singleton_append, hskip, hcs] at hmore
      exact absurd (List.cons.inj hmore).1 (by decide)
    · rw [List.singleton_append, hskip, hmembers]
      rfl

/-! ## Whole values -/

theorem readsBack_of_restorable (h : Restorable depth v) : ReadsBack depth v := by
  induction h with
  | null =>
    refine .of_succ .null fun level fuel rest hf hends => ?_
    rw [print]
    rfl
  | bool b =>
    refine .of_succ (.bool b) fun level fuel rest hf hends => ?_
    cases b <;> rw [print] <;> rfl
  | int h => exact readsBack_int h
  | str h =>
    rw [h.eq_ofString]
    exact readsBack_str _
  | list hr h => exact readsBack_list hr h
  | object hk hw hr h => exact readsBack_object hk hw hr h

/-- Within its limits the reader takes a value from its compact text as it was. -/
theorem read_compact (h : Restorable depth v) : read (limitsAt depth) (compact v) = .ok v := by
  have hstart := skipBlanks_print 0 h []
  rw [List.append_nil] at hstart
  have hread := readsBack_of_restorable h 0 ((print .compact 0 v).length + 1) [] (Nat.le_succ _)
    ends_nil
  rw [List.append_nil] at hread
  rw [read, compact, String.toList_ofList, hstart]
  exact bind_eq_ok_iff.2 ⟨_, hread, rfl⟩

theorem areWritable_iff {vs : List Value} : areWritable vs = true ↔ ∀ v ∈ vs, isWritable v := by
  induction vs with
  | nil => simp [areWritable]
  | cons v vs ih => simp [areWritable, ih]

theorem fieldsWritable_iff {fs : Fields} :
    fieldsWritable fs = true ↔ ∀ f ∈ fs, isWritable f.2 := by
  induction fs with
  | nil => simp [fieldsWritable]
  | cons f fs ih => simp [fieldsWritable, ih]

theorem isWritable_of_restorable (h : Restorable depth v) : isWritable v = true := by
  induction h with
  | null => rfl
  | bool b => rfl
  | int h => exact decide_eq_true h
  | str h => rfl
  | list hr h => exact areWritable_iff.2 h
  | object hk hw hr h => exact fieldsWritable_iff.2 h

end Json
end PETriage
