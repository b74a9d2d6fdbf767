import Mathlib.Data.List.Chain
import Mathlib.Data.Nat.Digits.Defs
import PETriage.Json.Printer
import PETriage.Json.Reader
import PETriage.Proofs.Number.Digits
import PETriage.Proofs.Text.Ascii

/-!
# Strings printed and read

Each character of a string is printed as itself, as a short escape, or as one or two units. The
reader takes the same character back from what was printed, whatever follows it.
-/
namespace PETriage

namespace Text

variable {c : Char} {n : Nat}

theorem isHighUnit_iff : isHighUnit n = true ↔ 0xD800 ≤ n ∧ n ≤ 0xDBFF := by
  simp [isHighUnit]

theorem isLowUnit_iff : isLowUnit n = true ↔ 0xDC00 ≤ n ∧ n ≤ 0xDFFF := by
  simp [isLowUnit]

theorem toNat_lt (c : Char) : c.toNat < 0x110000 := by
  have h : c.toNat < 0xD800 ∨ 0xDFFF < c.toNat ∧ c.toNat < 0x110000 := c.valid
  omega

theorem isHighUnit_toNat (c : Char) : isHighUnit c.toNat = false := by
  have h : c.toNat < 0xD800 ∨ 0xDFFF < c.toNat ∧ c.toNat < 0x110000 := c.valid
  rw [← Bool.not_eq_true, isHighUnit_iff]
  omega

theorem pointOfUnit_toNat (c : Char) : pointOfUnit c.toNat = .char c := by
  have h : c.toNat < 0xD800 ∨ 0xDFFF < c.toNat ∧ c.toNat < 0x110000 := c.valid
  rw [pointOfUnit, dif_neg (by omega), Char.ofNat_toNat]

theorem isHighUnit_halves (h : 65536 ≤ c.toNat) : isHighUnit (halves c).1 = true := by
  have hlt := toNat_lt c
  rw [isHighUnit_iff]
  simp only [halves]
  omega

theorem isLowUnit_halves (c : Char) : isLowUnit (halves c).2 = true := by
  rw [isLowUnit_iff]
  simp only [halves]
  omega

theorem joined_halves (h : 65536 ≤ c.toNat) : joined (halves c).1 (halves c).2 = c := by
  have hsum : 0x10000 + (0xD800 + (c.toNat - 0x10000) / 1024 - 0xD800) * 1024 +
      (0xDC00 + (c.toNat - 0x10000) % 1024 - 0xDC00) = c.toNat := by omega
  rw [joined, halves, hsum, Char.ofNat_toNat]

end Text

namespace Json

open Text (halves isHighUnit isLowUnit joined)

variable {c : Char} {n fuel : Nat} {cs rest : List Char}

/-! ## Units -/

def unitDigits (n : Nat) : List Char := (Nat.toDigits 16 n).leftpad 4 '0'

theorem unitEscape_eq (n : Nat) : unitEscape n = '\\' :: 'u' :: unitDigits n := rfl

theorem unit?_unitDigits (h : n < 65536) (rest : List Char) :
    unit? (unitDigits n ++ rest) = some (n, rest) := by
  have hdigits := Nat.toDigits_length 16 n 4 (by decide) h
  obtain ⟨ds, -, hd, hm, hv⟩ := Number.leftpad_toDigits_eq_map (by decide : 1 < 16) 4 n
  have hlength : ds.length = 4 := by
    have hpad : ((Nat.toDigits 16 n).leftpad 4 '0').length = _ := List.length_leftpad
    rw [hm, List.length_map] at hpad
    omega
  match ds, hlength with
  | [w, x, y, z], _ =>
    have hw := Number.hexDigitValue?_digitChar w (hd w (by simp))
    have hx := Number.hexDigitValue?_digitChar x (hd x (by simp))
    have hy := Number.hexDigitValue?_digitChar y (hd y (by simp))
    have hz := Number.hexDigitValue?_digitChar z (hd z (by simp))
    rw [unitDigits, hm, ← hv]
    simp [unit?, hw, hx, hy, hz, Number.ofDigits]

theorem escapedPoint?_unit (c : Char) (h : c.toNat < 65536) (rest : List Char) :
    escapedPoint? (unitDigits c.toNat ++ rest) = some (.char c, rest) := by
  simp [escapedPoint?, unit?_unitDigits h, Text.isHighUnit_toNat, Text.pointOfUnit_toNat]

theorem lt_of_unit (h : isHighUnit n = true ∨ isLowUnit n = true) : n < 65536 := by
  rw [Text.isHighUnit_iff, Text.isLowUnit_iff] at h
  omega

theorem escapedPoint?_joined {high low : Nat} (hhigh : isHighUnit high = true)
    (hlow : isLowUnit low = true) (rest : List Char) :
    escapedPoint? (unitDigits high ++ (unitEscape low ++ rest)) =
      some (.char (joined high low), rest) := by
  have hfirst := unit?_unitDigits (lt_of_unit (.inl hhigh)) (unitEscape low ++ rest)
  have hsecond := unit?_unitDigits (lt_of_unit (.inr hlow)) rest
  rw [unitEscape_eq, List.cons_append, List.cons_append] at hfirst ⊢
  simp [escapedPoint?, hfirst, hsecond, hhigh, hlow]

/-! ## Escapes -/

/-- The ways in which a character is printed. -/
inductive Shape (c : Char) : List Char → Prop
  | plain (hq : c ≠ '"') (hb : c ≠ '\\') (hlow : 32 ≤ c.toNat) (hhigh : c.toNat < 127) :
    Shape c [c]
  | simple {e : Char} (hu : e ≠ 'u') (ha : e.toNat < 128) (h : simpleEscape? e = some c) :
    Shape c ['\\', e]
  | unit (h : c.toNat < 65536) : Shape c (unitEscape c.toNat)
  | pair {high low : Nat} (hhigh : isHighUnit high = true) (hlow : isLowUnit low = true)
    (h : joined high low = c) : Shape c (unitEscape high ++ unitEscape low)

theorem shape_escapeChar (c : Char) : Shape c (escapeChar c) := by
  have hsimple : ∀ {code : Nat} {e : Char}, (c.toNat == code) = true → e ≠ 'u' → e.toNat < 128 →
      simpleEscape? e = some (Char.ofNat code) → Shape c ['\\', e] := by
    intro code e hc hu ha h
    rw [← beq_iff_eq.1 hc, Char.ofNat_toNat] at h
    exact .simple hu ha h
  unfold escapeChar
  split
  · rename_i h
    obtain rfl := beq_iff_eq.1 h
    exact .simple (by decide) (by decide) rfl
  split
  · rename_i h
    obtain rfl := beq_iff_eq.1 h
    exact .simple (by decide) (by decide) rfl
  split
  · rename_i h
    obtain rfl := beq_iff_eq.1 h
    exact .simple (by decide) (by decide) rfl
  split
  · rename_i h
    obtain rfl := beq_iff_eq.1 h
    exact .simple (by decide) (by decide) rfl
  split
  · rename_i h
    obtain rfl := beq_iff_eq.1 h
    exact .simple (by decide) (by decide) rfl
  split
  · exact hsimple ‹_› (by decide) (by decide) rfl
  split
  · exact hsimple ‹_› (by decide) (by decide) rfl
  split
  · rename_i hq hb _ _ _ _ _ h
    simp only [Bool.and_eq_true, decide_eq_true_eq] at h
    exact .plain (by simpa using hq) (by simpa using hb) h.1 h.2
  split
  · exact .unit ‹_›
  · have h : 65536 ≤ c.toNat := Nat.not_lt.1 ‹_›
    exact .pair (Text.isHighUnit_halves h) (Text.isLowUnit_halves c) (Text.joined_halves h)

theorem string?_unitEscape {digits : List Char} (fuel : Nat)
    (h : escapedPoint? digits = some (.char c, rest)) :
    string? (fuel + 1) ('\\' :: 'u' :: digits) =
      (string? fuel rest).map fun (ps, tail) => (.char c :: ps, tail) := by
  rw [string?, h]
  simp only [Option.bind_eq_bind, Option.bind_some]
  cases string? fuel rest <;> rfl

theorem string?_escapeChar (c : Char) (fuel : Nat) (rest : List Char) :
    string? (fuel + 1) (escapeChar c ++ rest) =
      (string? fuel rest).map fun (ps, tail) => (.char c :: ps, tail) := by
  have hshape := shape_escapeChar c
  generalize escapeChar c = shown at hshape
  cases hshape with
  | plain hq hb hlow hhigh =>
    show string? (fuel + 1) (c :: rest) = _
    rw [string?]
    · have hkeep : ¬((c == '\\' || c.toNat < 32) = true) := by simp [hb]; omega
      rw [if_neg hkeep]
    · exact hq
    · exact fun _ h => absurd h hb
    · exact fun _ _ h => absurd h hb
  | @simple e hu ha h =>
    show string? (fuel + 1) ('\\' :: e :: rest) = _
    rw [string?]
    · rw [h, Option.bind_eq_bind, Option.bind_some]
      cases string? fuel rest <;> rfl
    · exact hu
  | unit h => exact string?_unitEscape fuel (escapedPoint?_unit c h rest)
  | pair hhigh hlow h =>
    have hjoined := escapedPoint?_joined hhigh hlow rest
    rw [h] at hjoined
    rw [List.append_assoc]
    exact string?_unitEscape fuel hjoined

/-! ## Whole strings -/

theorem string?_flatMap (hf : cs.length < fuel) (rest : List Char) :
    string? fuel (cs.flatMap escapeChar ++ '"' :: rest) = some (cs.map .char, rest) := by
  induction cs generalizing fuel with
  | nil =>
    obtain ⟨fuel, rfl⟩ := Nat.exists_eq_succ_of_ne_zero (Nat.ne_zero_of_lt hf)
    rfl
  | cons c cs ih =>
    obtain ⟨fuel, rfl⟩ := Nat.exists_eq_succ_of_ne_zero (Nat.ne_zero_of_lt hf)
    have hread := ih (Nat.lt_of_succ_lt_succ hf)
    rw [List.flatMap_cons, List.append_assoc, string?_escapeChar c fuel, hread]
    rfl

end Json
end PETriage
