import Mathlib.Data.List.Forall2
import PETriage.Field.Lookup
import PETriage.Proofs.Number.Digits

/-!
# Spellings of whole numbers

A number may be spelled with zeros in front, in hexadecimal with letters of either case, and with
blanks around it; every spelling is read as the number.
-/
namespace PETriage

namespace Number

variable {base n : Nat} {cs : List Char} {c : Char}

/-- The characters are digits of the base, letters in either case, and have the value `n`. -/
structure Spells (base : Nat) (cs : List Char) (n : Nat) : Prop where
  nonempty : cs ≠ []
  value : ∃ ds, List.Forall₂ (fun c d => digitIn? base c = some d) cs ds ∧ ofDigits base ds = n

/-! ## Single digits -/

theorem toNat_lt_of_hexDigitValue? {d : Nat} (h : hexDigitValue? c = some d) : c.toNat < 103 := by
  have hle : ∀ {last : Char}, c ≤ last → c.toNat ≤ last.toNat := fun hc => hc
  unfold hexDigitValue? at h
  split at h
  · exact Nat.lt_of_le_of_lt (hle (And.right ‹_›)) (by decide)
  split at h
  · exact Nat.lt_of_le_of_lt (hle (And.right ‹_›)) (by decide)
  split at h
  · exact Nat.lt_of_le_of_lt (hle (And.right ‹_›)) (by decide)
  · cases h

theorem isPlain_ofNat : ∀ k < 103, (hexDigitValue? (Char.ofNat k)).isSome →
    IsPlain (Char.ofNat k) := by
  decide +kernel

theorem isDigit_ofNat : ∀ k < 103, (digitIn? 10 (Char.ofNat k)).isSome →
    Text.isDigit (Char.ofNat k) = true := by
  decide +kernel

theorem hexDigitValue?_of_digitIn? {d : Nat} (h : digitIn? base c = some d) :
    hexDigitValue? c = some d := by
  obtain ⟨e, he, hd⟩ := Option.bind_eq_some_iff.1 h
  split at hd
  · cases hd
    exact he
  · cases hd

theorem isPlain_of_digitIn? {d : Nat} (h : digitIn? base c = some d) : IsPlain c := by
  have hv := hexDigitValue?_of_digitIn? h
  have hp := isPlain_ofNat c.toNat (toNat_lt_of_hexDigitValue? hv)
  rw [Char.ofNat_toNat, hv] at hp
  exact hp rfl

theorem isDigit_of_digitIn? {d : Nat} (h : digitIn? 10 c = some d) : Text.isDigit c = true := by
  have hd := isDigit_ofNat c.toNat (toNat_lt_of_hexDigitValue? (hexDigitValue?_of_digitIn? h))
  rw [Char.ofNat_toNat, h] at hd
  exact hd rfl

/-! ## Digits together -/

theorem Spells.digit (h : Spells base cs n) : ∀ c ∈ cs, ∃ d, digitIn? base c = some d := by
  obtain ⟨ds, hd, -⟩ := h.value
  clear h
  induction hd with
  | nil => nofun
  | cons h _ ih =>
    simp only [List.forall_mem_cons]
    exact ⟨⟨_, h⟩, ih⟩

theorem Spells.plain (h : Spells base cs n) : ∀ c ∈ cs, IsPlain c := by
  intro c hc
  obtain ⟨d, hd⟩ := h.digit c hc
  exact isPlain_of_digitIn? hd

theorem digits?_of_forall₂ {ds : List Nat} (hne : cs ≠ [])
    (h : List.Forall₂ (fun c d => digitIn? base c = some d) cs ds) : digits? base cs = some ds := by
  induction h with
  | nil => exact absurd rfl hne
  | @cons c d cs ds hc hrest ih =>
    cases hrest with
    | nil => rw [digits?, hc]; rfl
    | @cons e f cs ds he hrest =>
      have hu : e ≠ '_' := (isPlain_of_digitIn? he).underscore
      rw [digits?, hc, ih (List.cons_ne_nil _ _)]
      · rfl
      · exact List.cons_ne_nil _ _
      · intro _ h
        exact hu (List.cons.inj h).1

theorem spells_map_digitChar {ds : List Nat} (hb : base ≤ 16) (hne : ds ≠ [])
    (hd : ∀ d ∈ ds, d < base) : Spells base (ds.map Nat.digitChar) (ofDigits base ds) where
  nonempty := by simpa using hne
  value := by
    refine ⟨ds, ?_, rfl⟩
    rw [List.forall₂_map_left_iff, List.forall₂_same]
    exact fun d h => digitIn?_digitChar hb (hd d h)

/-- The digits of a number spell it, with or without zeros in front. -/
theorem spells_leftpad (hb : 1 < base) (hb' : base ≤ 16) (width n : Nat) :
    Spells base ((Nat.toDigits base n).leftpad width '0') n := by
  obtain ⟨ds, hne, hd, hm, hv⟩ := leftpad_toDigits_eq_map hb width n
  have hs := spells_map_digitChar hb' hne hd
  rw [hv] at hs
  exact hm ▸ hs

theorem spells_toDigits (hb : 1 < base) (hb' : base ≤ 16) (n : Nat) :
    Spells base (Nat.toDigits base n) n := by
  have h := spells_leftpad hb hb' 0 n
  rwa [List.leftpad, Nat.zero_sub] at h

/-- A number without blanks around it: decimal with as many digits as a text may have, or
hexadecimal behind its mark. -/
inductive Written (n : Nat) : List Char → Prop
  | decimal {cs : List Char} (h : Spells 10 cs n) (hl : cs.length ≤ decimalDigitLimit) :
    Written n cs
  | hex {cs : List Char} (mark : Char) (hm : mark = 'x' ∨ mark = 'X') (h : Spells 16 cs n) :
    Written n ('0' :: mark :: cs)

theorem readDecimal?_of_spells (h : Spells 10 cs n) (hl : cs.length ≤ decimalDigitLimit) :
    readDecimal? cs = some (n : Int) := by
  obtain ⟨ds, hd, hv⟩ := h.value
  have hread : decimalDigits? cs = some ds := by
    rw [decimalDigits?, digits?_of_forall₂ h.nonempty hd, Option.bind_some, ← hd.length_eq,
      if_pos hl]
  rw [readDecimal?, withoutMargin_of_plain h.plain]
  obtain ⟨c, rest, rfl⟩ := List.exists_cons_of_ne_nil h.nonempty
  rw [signed_of_plain (h.plain c List.mem_cons_self)]
  simp only [hread, Option.map_some, applySign, Bool.false_eq_true, ↓reduceIte, hv]

theorem readHex?_of_spells {mark : Char} (hm : mark = 'x' ∨ mark = 'X') (h : Spells 16 cs n) :
    readHex? ('0' :: mark :: cs) = some (n : Int) := by
  obtain ⟨ds, hd, hv⟩ := h.value
  have hplain : ∀ c ∈ '0' :: mark :: cs, IsPlain c := by
    simp only [List.forall_mem_cons]
    exact ⟨by decide, by rcases hm with rfl | rfl <;> decide, h.plain⟩
  have hafter : afterMark cs = cs := by
    obtain ⟨c, rest, rfl⟩ := List.exists_cons_of_ne_nil h.nonempty
    rw [afterMark]
    exact fun _ he => (h.plain c List.mem_cons_self).underscore (List.cons.inj he).1
  have hread : hexDigits? ('0' :: mark :: cs) = some ds := by
    have hmark : markBase? mark = some 16 := by rcases hm with rfl | rfl <;> rfl
    rw [hexDigits?, hmark, hafter]
    exact digits?_of_forall₂ h.nonempty hd
  rw [readHex?, withoutMargin_of_plain hplain, signed_of_plain (by decide)]
  simp only [hread, Option.map_some, applySign, Bool.false_eq_true, ↓reduceIte, hv]

end Number

namespace Field

open Number (Written Spells)

variable {n : Nat} {s : String}

theorem isHexMarked_of_decimal (h : Spells 10 (Text.trim s.toList) n) : isHexMarked s = false := by
  have hx : ∀ c d, Number.digitIn? 10 c = some d → (c == 'x' || c == 'X') = false := by
    intro c d hd
    by_contra hc
    simp only [Bool.not_eq_false, Bool.or_eq_true, beq_iff_eq] at hc
    rcases hc with rfl | rfl <;> cases hd
  unfold isHexMarked
  split
  · rename_i c rest heq
    obtain ⟨d, hd⟩ := h.digit c (by simp [heq])
    exact hx c d hd
  · rfl

/-- A number is read however it is written, with any blanks around it. -/
theorem naturalOfText?_of_written (h : Written n (Text.trim s.toList)) :
    naturalOfText? s = some n := by
  generalize hcs : Text.trim s.toList = cs at h
  cases h with
  | decimal h hl =>
    have hmark : isHexMarked s = false := isHexMarked_of_decimal (hcs ▸ h)
    have hdigits : (!cs.isEmpty && cs.all Text.isDigit) = true := by
      rw [Bool.and_eq_true, List.all_eq_true]
      refine ⟨by simpa using h.nonempty, fun c hc => ?_⟩
      obtain ⟨d, hd⟩ := h.digit c hc
      exact Number.isDigit_of_digitIn? hd
    simp only [naturalOfText?, hmark, Bool.false_eq_true, ↓reduceIte, hcs, hdigits,
      Number.readDecimal?_of_spells h hl, Option.map_some, Int.toNat_natCast]
  | hex mark hm h =>
    have hmark : isHexMarked s = true := by
      rw [isHexMarked, hcs]
      rcases hm with rfl | rfl <;> rfl
    simp only [naturalOfText?, hmark, ↓reduceIte, hcs, Number.readHex?_of_spells hm h,
      Option.map_some, Int.toNat_natCast]

end Field
end PETriage
