import Mathlib.Tactic.SplitIfs
import PETriage.Text.Utf8

/-!
# Zero bytes between characters

A zero byte is a character of its own and goes on no other. Bytes are therefore decoded before and
after it independently, and bytes that are not zero never give its character.
-/
namespace PETriage.Text.Utf8

/-- The character of a zero byte. -/
def nul : Char := Char.ofNat 0

/-! ## Bytes behind the first one -/

theorem isTail_iff {b : UInt8} : isTail b = true ↔ 0x80 ≤ b.toNat ∧ b.toNat ≤ 0xBF := by
  simp only [isTail, Bool.and_eq_true, decide_eq_true_eq, UInt8.le_iff_toNat_le]
  exact Iff.rfl

/-- The second of three bytes: the character needs three and is no half of a pair. -/
theorem isSecondOfThree_iff {a b : UInt8} : isSecondOfThree a b = true ↔
    isTail b = true ∧ (a.toNat = 0xE0 → 0xA0 ≤ b.toNat) ∧ (a.toNat = 0xED → b.toNat ≤ 0x9F) := by
  simp only [isSecondOfThree, isTail, beq_iff_eq, ← UInt8.toNat_inj, UInt8.le_iff_toNat_le,
    UInt8.reduceToNat]
  split_ifs <;> simp only [Bool.and_eq_true, decide_eq_true_eq] <;> omega

/-- The second of four bytes: the character needs four and is not past the last one. -/
theorem isSecondOfFour_iff {a b : UInt8} : isSecondOfFour a b = true ↔
    isTail b = true ∧ (a.toNat = 0xF0 → 0x90 ≤ b.toNat) ∧ (a.toNat = 0xF4 → b.toNat ≤ 0x8F) := by
  simp only [isSecondOfFour, isTail, beq_iff_eq, ← UInt8.toNat_inj, UInt8.le_iff_toNat_le,
    UInt8.reduceToNat]
  split_ifs <;> simp only [Bool.and_eq_true, decide_eq_true_eq] <;> omega

/-! ## Decoding around a zero byte -/

theorem isTail_zero : isTail 0 = false := by decide

theorem isSecondOfThree_zero (a : UInt8) : isSecondOfThree a 0 = false :=
  Bool.eq_false_iff.2 fun h => absurd (isSecondOfThree_iff.1 h).1 (by decide)

theorem isSecondOfFour_zero (a : UInt8) : isSecondOfFour a 0 = false :=
  Bool.eq_false_iff.2 fun h => absurd (isSecondOfFour_iff.1 h).1 (by decide)

theorem decode_zero_cons (ys : List UInt8) : decode (0 :: ys) = nul :: decode ys := by
  rw [decode.eq_def]
  rfl

/-- Every branch of `decode` that waits for more bytes gives up at the zero. -/
theorem decode_append_zero (xs ys : List UInt8) :
    decode (xs ++ 0 :: ys) = decode xs ++ nul :: decode ys := by
  fun_induction decode xs
  all_goals
    try simp only [List.cons_append, List.nil_append] at *
    rw [decode.eq_def]
    simp [*, isTail_zero, isSecondOfThree_zero, isSecondOfFour_zero, decode_zero_cons]
  all_goals rfl

/-! ## Bytes that are not zero -/

theorem ofNat_ne_nul {n : Nat} (hv : n.isValidChar) (hn : 0 < n) : Char.ofNat n ≠ nul := by
  intro h
  have hvalue : (Char.ofNat n).toNat = n := by
    rw [Char.ofNat, dif_pos hv]
    rfl
  rw [h] at hvalue
  exact Nat.ne_of_lt hn hvalue

theorem tailBits_lt (b : UInt8) : tailBits b < 64 := Nat.mod_lt _ (by decide)

/-- Three bytes that pass as a character are one: it needs three and is no half of a pair. -/
theorem valid_of_three {a b : UInt8} (c : UInt8) (ha : 224 ≤ a.toNat ∧ a.toNat ≤ 239)
    (h : isSecondOfThree a b = true) :
    let n := a.toNat % 16 * 4096 + tailBits b * 64 + tailBits c
    0 < n ∧ n.isValidChar := by
  have hc := tailBits_lt c
  rw [isSecondOfThree_iff, isTail_iff] at h
  simp only [tailBits, Nat.isValidChar] at hc ⊢
  omega

theorem valid_of_four {a b : UInt8} (c d : UInt8) (ha : 240 ≤ a.toNat ∧ a.toNat ≤ 244)
    (h : isSecondOfFour a b = true) :
    let n := a.toNat % 8 * 262144 + tailBits b * 4096 + tailBits c * 64 + tailBits d
    0 < n ∧ n.isValidChar := by
  have hc := tailBits_lt c
  have hd := tailBits_lt d
  rw [isSecondOfFour_iff, isTail_iff] at h
  simp only [tailBits, Nat.isValidChar] at hc hd ⊢
  omega

theorem nul_not_mem_decode {xs : List UInt8} (h : 0 ∉ xs) : nul ∉ decode xs := by
  have hle : ∀ {a b c : UInt8}, (decide (a ≤ c) && decide (c ≤ b)) = true →
      a.toNat ≤ c.toNat ∧ c.toNat ≤ b.toNat := by
    intro a b c hc
    simpa [UInt8.le_iff_toNat_le] using hc
  fun_induction decode xs
  case case2 a rest ha ih =>
    have hpos : 0 < a.toNat := Nat.pos_of_ne_zero fun hz => h (by
      rw [List.mem_cons]
      exact .inl (UInt8.toNat_inj.1 hz.symm))
    have hlt : a.toNat < 128 := UInt8.lt_iff_toNat_lt.1 ha
    have hne := ofNat_ne_nul (.inl (by omega)) hpos
    grind
  case case4 a ha h2 b rest hb ih =>
    have hrange := hle h2
    have htail := tailBits_lt b
    have hne : Char.ofNat (a.toNat % 32 * 64 + tailBits b) ≠ nul := by
      have hc2 : (0xC2 : UInt8).toNat = 194 := rfl
      have hdf : (0xDF : UInt8).toNat = 223 := rfl
      exact ofNat_ne_nul (.inl (by omega)) (by omega)
    grind
  case case8 a ha h2 h3 b hb c rest hc ih =>
    obtain ⟨hpos, hvalid⟩ := valid_of_three c (hle h3) hb
    have hne := ofNat_ne_nul hvalid hpos
    grind
  case case14 a ha h2 h3 h4 b hb c hc d rest hd ih =>
    obtain ⟨hpos, hvalid⟩ := valid_of_four c d (hle h4) hb
    have hne := ofNat_ne_nul hvalid hpos
    grind
  -- Elsewhere no character is added.
  all_goals grind

end PETriage.Text.Utf8
