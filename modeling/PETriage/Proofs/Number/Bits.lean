import PETriage.Number.Binary

/-!
# Binary values and their parts

Comparison and finiteness are defined on a sign, a mantissa and an exponent that are taken
from the bits; these are the parts from which decimal texts are computed.
-/
namespace PETriage.Number

open Float.Model Float.Model.UnpackedFloat

def isNegative : Sign → Bool
  | .negative => true
  | .positive => false

def partsOfUnpacked : UnpackedFloat → Parts
  | .notANumber => .nan
  | .infinity s => .infinite (isNegative s)
  | .zero s => .finite (isNegative s) ⟨0, -1074⟩
  | .finite s mantissa exponent _ => .finite (isNegative s) ⟨mantissa, exponent⟩

theorem partsOfUnpacked_infinity (s : Sign) :
    partsOfUnpacked (.infinity s) = .infinite (isNegative s) := rfl

theorem partsOfUnpacked_zero (s : Sign) :
    partsOfUnpacked (.zero s) = .finite (isNegative s) ⟨0, -1074⟩ := rfl

theorem partsOfUnpacked_finite (s : Sign) (mantissa : Nat) (exponent : Int) (hm : 0 < mantissa) :
    partsOfUnpacked (.finite s mantissa exponent hm) =
      .finite (isNegative s) ⟨mantissa, exponent⟩ :=
  rfl

section

variable (b : BitVec Format.binary64.numBits)

theorem toNat_unpackExponent : (unpackExponent b).toNat = b.toNat / exponentWeight % 2048 := by
  delta unpackExponent
  simp only [BitVec.toNat_cast, BitVec.extractLsb_toNat, Nat.shiftRight_eq_div_pow]
  rfl

theorem toNat_unpackMantissa : (unpackMantissa b).toNat = b.toNat % exponentWeight := by
  delta unpackMantissa
  simp only [BitVec.toNat_cast, BitVec.extractLsb_toNat, Nat.shiftRight_eq_div_pow]
  simp [exponentWeight]

theorem toNat_unpackSign : (unpackSign b).toNat = b.toNat / signWeight % 2 := by
  delta unpackSign
  simp only [BitVec.toNat_cast, BitVec.extractLsb_toNat, Nat.shiftRight_eq_div_pow]
  rfl

theorem isNegative_unpackSign :
    isNegative (Sign.ofBitVec (unpackSign b)) = (b.toNat / signWeight % 2 == 1) := by
  have h := toNat_unpackSign b
  by_cases hz : unpackSign b = 0#1
  · rw [hz] at h
    simp only [Sign.ofBitVec, hz, ↓reduceIte, isNegative, ← h]
    rfl
  · have hone : unpackSign b = 1#1 := by
      generalize unpackSign b = s at hz
      revert hz
      revert s
      decide
    rw [hone] at h
    simp only [Sign.ofBitVec, hone, isNegative, ← h]
    rfl

theorem unpackExponent_eq_ones_iff :
    unpackExponent b = -1#11 ↔ b.toNat / exponentWeight % 2048 = 2047 := by
  rw [← toNat_unpackExponent, ← BitVec.toNat_inj]
  rfl

theorem unpackExponent_eq_zero_iff :
    unpackExponent b = 0#11 ↔ b.toNat / exponentWeight % 2048 = 0 := by
  rw [← toNat_unpackExponent, ← BitVec.toNat_inj]
  rfl

theorem unpackMantissa_eq_zero_iff :
    unpackMantissa b = 0#52 ↔
      b.toNat % exponentWeight = 0 := by
  rw [← toNat_unpackMantissa, ← BitVec.toNat_inj]
  rfl

/-- A mantissa of 52 bits below the bit that is not written. -/
theorem toNat_append_unpackMantissa :
    ((1#1 ++ (unpackMantissa b : BitVec 52) : BitVec (1 + 52))).toNat =
      exponentWeight + b.toNat % exponentWeight := by
  rw [BitVec.toNat_append, ← Nat.shiftLeft_add_eq_or_of_lt (unpackMantissa b).isLt,
    toNat_unpackMantissa]
  rfl

theorem partsOfUnpacked_unpack :
    partsOfUnpacked (UnpackedFloat.unpack .binary64 b) = partsOfBits b.toNat := by
  have hs := isNegative_unpackSign b
  simp only [partsOfBits, beq_iff_eq]
  unfold UnpackedFloat.unpack
  by_cases he : b.toNat / exponentWeight % 2048 = 2047
  · rw [if_pos ((unpackExponent_eq_ones_iff b).2 he), if_pos he]
    by_cases hm : b.toNat % exponentWeight = 0
    · rw [if_pos ((unpackMantissa_eq_zero_iff b).2 hm), if_pos hm, partsOfUnpacked_infinity, hs]
    · rw [if_neg (mt (unpackMantissa_eq_zero_iff b).1 hm), if_neg hm]
      rfl
  · rw [if_neg (mt (unpackExponent_eq_ones_iff b).1 he), if_neg he]
    by_cases hz : b.toNat / exponentWeight % 2048 = 0
    · rw [if_pos ((unpackExponent_eq_zero_iff b).2 hz), if_pos hz]
      by_cases hm : b.toNat % exponentWeight = 0
      · rw [dif_pos ((unpackMantissa_eq_zero_iff b).2 hm), partsOfUnpacked_zero, hs, hm]
      · rw [dif_neg (mt (unpackMantissa_eq_zero_iff b).1 hm), partsOfUnpacked_finite, hs,
          toNat_unpackMantissa, toNat_unpackExponent, hz]
        rfl
    · rw [if_neg (mt (unpackExponent_eq_zero_iff b).1 hz), if_neg hz, partsOfUnpacked_finite, hs,
        toNat_append_unpackMantissa, toNat_unpackExponent]
      rfl

end

theorem parts_eq (x : Float) : parts x = partsOfUnpacked x.toModel.unpack :=
  (partsOfUnpacked_unpack x.toModel.toBits.toBitVec).symm

variable {x : Float} {d : Dyadic}

theorem isFinite_iff : x.isFinite = true ↔ ∃ negative d, parts x = .finite negative d := by
  show x.toModel.unpack.isFinite = true ↔ _
  rw [parts_eq]
  cases x.toModel.unpack with
  | notANumber =>
    show false = true ↔ ∃ negative d, Parts.nan = .finite negative d
    simp
  | infinity s =>
    show false = true ↔ ∃ negative d, Parts.infinite (isNegative s) = .finite negative d
    simp
  | zero s => exact iff_of_true rfl ⟨_, _, rfl⟩
  | finite s mantissa exponent hm => exact iff_of_true rfl ⟨_, _, rfl⟩

/-- Below the least exponent there is nothing, and above it no mantissa is short. -/
theorem bounds_of_parts {negative : Bool} (h : parts x = .finite negative d) :
    d.mantissa < 2 * exponentWeight ∧ -1074 ≤ d.exponent ∧
      (d.exponent = -1074 ∨ exponentWeight ≤ d.mantissa) := by
  have hf : x.toBits.toNat % exponentWeight < exponentWeight := Nat.mod_lt _ (by decide)
  simp only [parts, partsOfBits, beq_iff_eq] at h
  split at h
  · split at h <;> cases h
  split at h
  · cases h
    exact ⟨Nat.lt_of_lt_of_le hf (Nat.le_mul_of_pos_left _ (by decide)), Int.le_refl _, .inl rfl⟩
  · cases h
    exact ⟨by dsimp only; omega, by dsimp only; omega, .inr (Nat.le_add_right _ _)⟩

theorem ratio_den_pos (d : Dyadic) : 0 < d.ratio.2 := by
  unfold Dyadic.ratio
  split
  · exact Nat.one_pos
  · exact Nat.two_pow_pos _

theorem lt_iff {x y : Float} : x < y ↔ x.toModel.unpack.lt y.toModel.unpack = true :=
  decide_eq_true_iff

theorem unpack_zero : (0.0 : Float).toModel.unpack = .zero .positive := rfl

theorem parts_zero : parts 0.0 = .finite false ⟨0, -1074⟩ := by
  rw [parts_eq, unpack_zero]
  rfl

theorem zero_lt_iff : 0.0 < x ↔
    parts x = .infinite false ∨ ∃ d, parts x = .finite false d ∧ 0 < d.mantissa := by
  rw [lt_iff, parts_eq, unpack_zero]
  cases x.toModel.unpack with
  | notANumber =>
    show false = true ↔ Parts.nan = .infinite false ∨
      ∃ d, Parts.nan = .finite false d ∧ 0 < d.mantissa
    simp
  | infinity s =>
    cases s with
    | positive => exact iff_of_true rfl (.inl rfl)
    | negative =>
      show false = true ↔ Parts.infinite true = .infinite false ∨
        ∃ d, Parts.infinite true = .finite false d ∧ 0 < d.mantissa
      simp
  | zero s =>
    show false = true ↔ Parts.finite (isNegative s) ⟨0, -1074⟩ = .infinite false ∨
      ∃ d, Parts.finite (isNegative s) ⟨0, -1074⟩ = .finite false d ∧ 0 < d.mantissa
    simp
  | finite s mantissa exponent hm =>
    cases s with
    | positive => exact iff_of_true rfl (.inr ⟨_, rfl, hm⟩)
    | negative =>
      show false = true ↔ Parts.finite true ⟨mantissa, exponent⟩ = .infinite false ∨
        ∃ d, Parts.finite true ⟨mantissa, exponent⟩ = .finite false d ∧ 0 < d.mantissa
      simp

theorem unpack_eight :
    (8.0 : Float).toModel.unpack = .finite .positive exponentWeight (-49) (by decide) := rfl

theorem finite_lt_iff {m n : Nat} {e f : Int} (hm : 0 < m) (hn : 0 < n) :
    (UnpackedFloat.finite .positive m e hm).lt (.finite .positive n f hn) = true ↔
      e < f ∨ e = f ∧ m < n := by
  show (some ((compare e f).then (compare m n)) == some .lt) = true ↔ _
  simp only [beq_iff_eq, Option.some.injEq, Ordering.then_eq_lt, Int.compare_eq_lt,
    Int.compare_eq_eq, Nat.compare_eq_lt]

theorem ratio_lt_eight_iff (hlt : d.mantissa < 2 * exponentWeight)
    (hn : d.exponent = -1074 ∨ exponentWeight ≤ d.mantissa) :
    d.ratio.1 < 8 * d.ratio.2 ↔
      d.exponent < -49 ∨ d.exponent = -49 ∧ d.mantissa < exponentWeight := by
  simp only [exponentWeight] at hlt hn ⊢
  unfold Dyadic.ratio
  by_cases he : 0 ≤ d.exponent
  · have hle : d.mantissa * 1 ≤ d.mantissa * 2 ^ d.exponent.toNat :=
      Nat.mul_le_mul_left _ Nat.one_le_two_pow
    rw [if_pos he, Nat.pow_eq]
    exact iff_of_false (by dsimp only; omega) (by omega)
  · rw [if_neg he, Nat.pow_eq]
    rcases Int.lt_trichotomy d.exponent (-49) with h | h | h
    · have hpow : 2 ^ 50 ≤ 2 ^ (-d.exponent).toNat := Nat.pow_le_pow_right (by decide) (by omega)
      refine iff_of_true ?_ (.inl h)
      dsimp only
      omega
    · have hpow : 2 ^ (-d.exponent).toNat = 2 ^ 49 := by rw [h]; rfl
      dsimp only
      omega
    · have hpow : 2 ^ (-d.exponent).toNat ≤ 2 ^ 48 := Nat.pow_le_pow_right (by decide) (by omega)
      exact iff_of_false (by dsimp only; omega) (by omega)

theorem lt_eight_iff (h : parts x = .finite false d) : x < 8.0 ↔ d.ratio.1 < 8 * d.ratio.2 := by
  obtain ⟨hlt, -, hn⟩ := bounds_of_parts h
  rw [ratio_lt_eight_iff hlt hn, lt_iff, unpack_eight]
  rw [parts_eq] at h
  cases hu : x.toModel.unpack with
  | notANumber => rw [hu] at h; cases h
  | infinity s => rw [hu] at h; cases h
  | zero s =>
    rw [hu] at h
    cases s with
    | negative => cases h
    | positive =>
      cases h
      exact iff_of_true rfl (.inl (by decide))
  | finite s mantissa exponent hm =>
    rw [hu] at h
    cases s with
    | negative => cases h
    | positive =>
      cases h
      exact finite_lt_iff hm (by decide)

end PETriage.Number
