import PETriage.Proofs.Number.Bits
import PETriage.Proofs.Number.Fixed
import PETriage.Report.Normalize

/-!
# Statistics that keep their text

A statistic is moved into its range before it is written. A value that is written as such a
text is in the range already, or so close to it that moving it changes no digit.
-/
namespace PETriage.Report

open Number
open Statistics (clampEntropy)

variable {x y : Float} {d : Number.Dyadic} {places : Nat}

theorem finiteOrZero_of_parts {negative : Bool} (h : parts x = .finite negative d) :
    finiteOrZero x = x := by
  rw [finiteOrZero, if_pos (isFinite_iff.2 ⟨negative, d, h⟩)]

theorem exists_parts_finiteOrZero (x : Float) :
    ∃ negative d, parts (finiteOrZero x) = .finite negative d := by
  unfold finiteOrZero
  split
  · exact isFinite_iff.1 ‹_›
  · exact ⟨false, _, parts_zero⟩

/-- Of the values that are finite, those above zero have no minus sign. -/
theorem parts_of_pos {negative : Bool} (h : parts x = .finite negative d) (hx : x > 0.0) :
    parts x = .finite false d ∧ 0 < d.mantissa := by
  rcases zero_lt_iff.1 hx with hi | ⟨e, he, hp⟩
  · rw [hi] at h
    cases h
  · rw [he] at h
    cases h
    exact ⟨he, hp⟩

theorem ratio_of_mantissa_zero (h : d.mantissa = 0) : d.ratio.1 = 0 := by
  unfold Number.Dyadic.ratio
  split <;> simp [h]

/-- A value that is not above zero is written like zero. -/
theorem fixed_zero_of_not_pos (h : parts x = .finite false d) (hx : ¬x > 0.0) :
    fixed places 0.0 = fixed places x := by
  have hz : d.mantissa = 0 := by
    apply Nat.eq_zero_of_not_pos
    intro hp
    exact hx (zero_lt_iff.2 (.inr ⟨d, h, hp⟩))
  have hunits (e : Number.Dyadic) (he : e.mantissa = 0) :
      fixedMagnitude places e = pointed places 0 := by
    have hle : roundedQuotient (e.ratio.1 * Nat.pow 10 places) e.ratio.2 ≤ 0 :=
      roundedQuotient_le (ratio_den_pos e) (by simp [ratio_of_mantissa_zero he])
    rw [fixedMagnitude, Nat.le_zero.1 hle]
  rw [fixed_of_parts h, fixed_of_parts parts_zero, hunits d hz, hunits _ rfl]

/-! ## Chi-square -/

theorem parts_maxEntropy : parts Statistics.maxEntropy = .finite false ⟨exponentWeight, -49⟩ := by
  rw [Statistics.maxEntropy, parts_eq, unpack_eight]
  rfl

theorem maxEntropy_pos : Statistics.maxEntropy > 0.0 :=
  zero_lt_iff.2 (.inr ⟨_, parts_maxEntropy, by decide⟩)

theorem ratio_maxEntropy : (Number.Dyadic.mk exponentWeight (-49)).ratio.1 =
    8 * (Number.Dyadic.mk exponentWeight (-49)).ratio.2 := by decide

/-- An entropy that was moved into its range has at most eight bits. -/
theorem exists_parts_clampEntropy {negative : Bool} (h : parts x = .finite negative d) :
    ∃ e, parts (clampEntropy x) = .finite false e ∧ e.ratio.1 ≤ 8 * e.ratio.2 := by
  have hzero : (Number.Dyadic.mk 0 (-1074)).ratio.1 ≤ 8 * (Number.Dyadic.mk 0 (-1074)).ratio.2 := by
    rw [ratio_of_mantissa_zero rfl]
    exact Nat.zero_le _
  simp only [clampEntropy]
  by_cases hlt : x < Statistics.maxEntropy
  · rw [if_pos hlt]
    by_cases hx : x > 0.0
    · rw [if_pos hx]
      obtain ⟨hp, -⟩ := parts_of_pos h hx
      exact ⟨d, hp, Nat.le_of_lt ((lt_eight_iff hp).1 hlt)⟩
    · rw [if_neg hx]
      exact ⟨_, parts_zero, hzero⟩
  · rw [if_neg hlt, if_pos maxEntropy_pos]
    exact ⟨_, parts_maxEntropy, Nat.le_of_eq ratio_maxEntropy⟩

theorem entropyField_of_fixed (h : fixed 6 y = entropyField x) :
    entropyField y = entropyField x := by
  obtain ⟨negative, c, hx⟩ := exists_parts_finiteOrZero x
  obtain ⟨d, hd, hle⟩ := exists_parts_clampEntropy hx
  have hfield : entropyField x = fixedMagnitude 6 d := fixed_of_parts hd
  obtain ⟨e, he, hunits⟩ := parts_of_fixed_eq_pointed (h.trans hfield)
  rw [← h]
  simp only [entropyField, Statistics.entropyText, finiteOrZero_of_parts he, clampEntropy]
  by_cases hlt : y < Statistics.maxEntropy
  · rw [if_pos hlt]
    by_cases hy : y > 0.0
    · rw [if_pos hy]
    · rw [if_neg hy]
      exact fixed_zero_of_not_pos he hy
  · -- both are eight bits up to the last place
    rw [if_neg hlt, if_pos maxEntropy_pos, fixed_of_parts parts_maxEntropy, fixed_of_parts he]
    have hge : 8 * e.ratio.2 ≤ e.ratio.1 := Nat.not_lt.1 (mt (lt_eight_iff he).2 hlt)
    have hhigh : 8000000 ≤ roundedQuotient (e.ratio.1 * Nat.pow 10 6) e.ratio.2 :=
      le_roundedQuotient (ratio_den_pos e) (by rw [Nat.pow_eq]; omega)
    have hlow : roundedQuotient (d.ratio.1 * Nat.pow 10 6) d.ratio.2 ≤ 8000000 :=
      roundedQuotient_le (ratio_den_pos d) (by rw [Nat.pow_eq]; omega)
    have hsame : roundedQuotient (e.ratio.1 * Nat.pow 10 6) e.ratio.2 =
        roundedQuotient (d.ratio.1 * Nat.pow 10 6) d.ratio.2 := pointed_injective hunits
    have height : fixedMagnitude 6 ⟨exponentWeight, -49⟩ = pointed 6 8000000 := by decide
    rw [height, fixedMagnitude]
    congr 1
    omega

end PETriage.Report
