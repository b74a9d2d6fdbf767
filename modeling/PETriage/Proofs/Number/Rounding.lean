import Mathlib.Algebra.Group.Nat.Defs
import PETriage.Proofs.Number.Bits

/-!
# Rounding of binary values

The quotient of two values is computed with a bit to spare and rounded to a mantissa of 53
bits. However it is rounded, the mantissa moves by less than one of its own units, and a value
whose exponent is in range survives being packed into bits.
-/
namespace PETriage.Number

open Float.Model Float.Model.UnpackedFloat

/-! ## Shifts -/

theorem mantissa_ofMantissaAndAccuracy (m : Nat) (accuracy : Accuracy) :
    (ExtendedMantissa.ofMantissaAndAccuracy m accuracy).mantissa = m := by
  cases accuracy with
  | exact => rfl
  | inexact order => cases order <;> rfl

theorem mantissa_shiftRight (em : ExtendedMantissa) (n : Nat) :
    (em >>> n).mantissa = em.mantissa / 2 ^ n := by
  induction n with
  | zero => exact (Nat.div_one _).symm
  | succ n ih =>
    show (em >>> n).mantissa / 2 = _
    rw [ih, Nat.div_div_eq_div_mul, Nat.pow_succ]

/-- A mantissa is rounded down or to the next one. -/
theorem roundedMantissa_bounds (em : ExtendedMantissa) :
    em.mantissa ≤ em.roundedMantissa ∧ em.roundedMantissa ≤ em.mantissa + 1 := by
  obtain ⟨m, round, sticky⟩ := em
  cases round <;> cases sticky
  all_goals
    simp only [ExtendedMantissa.roundedMantissa, ExtendedMantissa.accuracy,
      Accuracy.roundToNearestEven]
    omega

variable {m : Nat} {e : Int}

theorem targetExponent_eq (h : -1074 ≤ m.log2 + e - 52) :
    Format.binary64.targetExponent (totalExponent m e) = m.log2 + e - 52 := by
  have hmin : Format.binary64.minExponent = -1074 := rfl
  have hbits : (Format.binary64.mantissaBits : Int) = 53 := rfl
  rw [Format.targetExponent, totalExponent, hmin, hbits]
  omega

theorem shiftToTargetExponent_eq (accuracy : Accuracy) (hm : 52 ≤ m.log2)
    (he : -1074 ≤ m.log2 + e - 52) :
    shiftToTargetExponent .binary64 m e accuracy =
      (ExtendedMantissa.ofMantissaAndAccuracy m accuracy >>> (m.log2 - 52),
        e + (m.log2 - 52 : Nat)) := by
  have hshift : ((m.log2 : Int) + e - 52 - e).toNat = m.log2 - 52 := by omega
  rw [shiftToTargetExponent, targetExponent_eq he]
  simp only [shiftToExponent, hshift]

/-! ## Rounding -/

theorem finite_congr {s t : Sign} {n : Nat} {f : Int} {hm : 0 < m} {hn : 0 < n} (hs : s = t)
    (hmn : m = n) (hef : e = f) :
    UnpackedFloat.finite s m e hm = UnpackedFloat.finite t n f hn := by
  subst hs hmn hef
  rfl

/-- Rounding shifts once to drop bits and once more if it carried. -/
theorem roundWithAccuracy_of_shifts (sign : Sign) (accuracy : Accuracy)
    {first second : ExtendedMantissa × Int}
    (hfirst : shiftToTargetExponent .binary64 m e accuracy = first)
    (hsecond : shiftToTargetExponent .binary64 first.1.roundedMantissa first.2 .exact = second)
    (hpos : 0 < second.1.mantissa) :
    roundWithAccuracy .binary64 sign m e accuracy =
      .finite sign second.1.mantissa second.2 hpos := by
  subst hfirst hsecond
  exact dif_neg (Nat.pos_iff_ne_zero.1 hpos)

/-- A mantissa of 53 bits needs no rounding. -/
theorem roundWithAccuracy_exact (sign : Sign) (hm : m.log2 = 52) (he : -1074 ≤ e) (hpos : 0 < m) :
    roundWithAccuracy .binary64 sign m e .exact = .finite sign m e hpos := by
  have hshift : shiftToTargetExponent .binary64 m e .exact = (⟨m, false, false⟩, e) := by
    rw [shiftToTargetExponent_eq .exact (by omega) (by omega), hm]
    exact Prod.ext rfl (Int.add_zero e)
  exact roundWithAccuracy_of_shifts sign .exact hshift hshift hpos

/-- A mantissa that rounding carried to 54 bits gives one of them up. -/
theorem exists_shift_of_carried {r : Nat} (hlow : 2 ^ 52 ≤ r) (hhigh : r ≤ 2 ^ 53)
    (he : -1074 ≤ e) : ∃ n i : Nat, (shiftToTargetExponent .binary64 r e .exact).1.mantissa = n ∧
      (shiftToTargetExponent .binary64 r e .exact).2 = e + i ∧ n.log2 = 52 ∧ i ≤ 1 ∧
      n * 2 ^ i = r := by
  rcases Nat.lt_or_ge r (2 ^ 53) with hlt | hge
  · have hlog : r.log2 = 52 := (Nat.log2_eq_iff (by omega)).2 ⟨hlow, hlt⟩
    refine ⟨r, 0, ?_, ?_, hlog, Nat.zero_le 1, Nat.mul_one r⟩
    · rw [shiftToTargetExponent_eq .exact (by omega) (by omega), hlog]
      rfl
    · rw [shiftToTargetExponent_eq .exact (by omega) (by omega), hlog]
  · obtain rfl : r = 2 ^ 53 := by omega
    have hlog : (2 ^ 53).log2 = 53 := Nat.log2_two_pow
    refine ⟨2 ^ 52, 1, ?_, ?_, Nat.log2_two_pow, Nat.le_refl 1, by decide⟩
    · rw [shiftToTargetExponent_eq .exact (by omega) (by omega), hlog]
      rfl
    · rw [shiftToTargetExponent_eq .exact (by omega) (by omega), hlog]

/-- Rounding moves a value by less than the unit of the bits that are dropped. -/
theorem exists_roundWithAccuracy (sign : Sign) (accuracy : Accuracy) (hm : 52 ≤ m.log2)
    (he : -1074 ≤ e) :
    ∃ (n j : Nat) (hn : 0 < n),
      roundWithAccuracy .binary64 sign m e accuracy = .finite sign n (e + j) hn ∧
      n.log2 = 52 ∧ j ≤ m.log2 - 51 ∧
      m < n * 2 ^ j + 2 ^ (m.log2 - 52) ∧ n * 2 ^ j ≤ m + 2 ^ (m.log2 - 52) := by
  obtain ⟨s, hs⟩ : ∃ s, m.log2 = 52 + s := ⟨m.log2 - 52, by omega⟩
  have hsub : m.log2 - 52 = s := by omega
  obtain ⟨hfloor, hceil⟩ := (Nat.log2_eq_iff (by rintro rfl; simp at hm)).1 hs
  have hmodel := shiftToTargetExponent_eq (m := m) (e := e) accuracy hm (by omega)
  rw [hsub] at hmodel ⊢
  obtain ⟨hdown, hup⟩ :=
    roundedMantissa_bounds (ExtendedMantissa.ofMantissaAndAccuracy m accuracy >>> s)
  rw [mantissa_shiftRight, mantissa_ofMantissaAndAccuracy] at hdown hup
  generalize hr :
    (ExtendedMantissa.ofMantissaAndAccuracy m accuracy >>> s).roundedMantissa = r at hdown hup
  have hlow : 2 ^ 52 ≤ m / 2 ^ s := by
    rw [Nat.le_div_iff_mul_le (Nat.two_pow_pos s), ← Nat.pow_add]
    exact hfloor
  have hhigh : m / 2 ^ s < 2 ^ 53 := by
    rw [Nat.div_lt_iff_lt_mul (Nat.two_pow_pos s), ← Nat.pow_add, Nat.add_right_comm 52 1 s]
    exact hceil
  obtain ⟨n, i, hn, hexp, hlog, hi, hvalue⟩ :=
    exists_shift_of_carried (r := r) (e := e + s) (by omega) (by omega) (by omega)
  have hpos : 0 < n := by
    rcases Nat.eq_zero_or_pos n with rfl | h
    · simp at hlog
    · exact h
  refine ⟨n, s + i, hpos, ?_, hlog, by omega, ?_, ?_⟩
  · subst hr hn
    have hround := roundWithAccuracy_of_shifts sign accuracy hmodel rfl hpos
    have hsum : e + s + i = e + (s + i : Nat) := by omega
    exact hround.trans (finite_congr rfl rfl (hexp.trans hsum))
  all_goals
    have hunits : n * 2 ^ (s + i) = r * 2 ^ s := by
      rw [← hvalue, Nat.pow_add, Nat.mul_comm (2 ^ s), Nat.mul_assoc]
    rw [hunits]
  · calc
      m < (m / 2 ^ s + 1) * 2 ^ s := by
        rw [Nat.mul_comm]
        exact Nat.lt_mul_div_succ m (Nat.two_pow_pos s)
      _ ≤ (r + 1) * 2 ^ s := Nat.mul_le_mul_right _ (Nat.add_le_add_right hdown 1)
      _ = r * 2 ^ s + 2 ^ s := Nat.succ_mul r _
  · calc
      r * 2 ^ s ≤ (m / 2 ^ s + 1) * 2 ^ s := Nat.mul_le_mul_right _ hup
      _ = m / 2 ^ s * 2 ^ s + 2 ^ s := Nat.succ_mul _ _
      _ ≤ m + 2 ^ s := Nat.add_le_add_right (Nat.div_mul_le_self m (2 ^ s)) _

/-! ## Packing -/

theorem unpackSign_packComponents (sign : Sign) (exponent : BitVec 11) (mantissa : BitVec 52) :
    Sign.ofBitVec (unpackSign (packComponents .binary64 sign exponent mantissa)) = sign := by
  delta unpackSign
  simp only [packComponents, BitVec.extractLsb]
  rw [BitVec.extractLsb'_append_eq_of_le (by omega), BitVec.extractLsb'_append_eq_of_le (by omega)]
  cases sign with
  | positive => rfl
  | negative => rfl

/-- The bits of a value whose mantissa has 53 bits and whose exponent is in range. -/
theorem unpack_pack_of_normal (sign : Sign) (hm : m.log2 = 52) (hlow : -1074 ≤ e) (hhigh : e ≤ 971)
    (hpos : 0 < m) :
    UnpackedFloat.unpack .binary64 (UnpackedFloat.pack .binary64 (.finite sign m e hpos)) =
      .finite sign m e hpos := by
  obtain ⟨hfloor, hceil⟩ := (Nat.log2_eq_iff (Nat.pos_iff_ne_zero.1 hpos)).1 hm
  obtain ⟨biased, hbiased⟩ : ∃ n : Nat, (n : Int) = e + 1075 := ⟨(e + 1075).toNat, by omega⟩
  have hpack : UnpackedFloat.pack .binary64 (.finite sign m e hpos) =
      packComponents .binary64 sign (BitVec.ofNat 11 biased) (BitVec.ofNat 52 m) := by
    have hinfinite : ¬2 ^ 11 ≤ biased + 1 := by omega
    have hbits : m.log2 + 1 = Format.binary64.mantissaBits := by
      rw [hm]
      rfl
    have hexponent : (e + Format.binary64.exponentBias + (52 : Nat)).toNat = biased := by
      have hbias : (Format.binary64.exponentBias : Int) = 1023 := rfl
      omega
    show (if 2 ^ 11 ≤ (e + Format.binary64.exponentBias + (52 : Nat)).toNat + 1 then _
      else if m.log2 + 1 = Format.binary64.mantissaBits then
        packComponents .binary64 sign
          (BitVec.ofNat 11 (e + Format.binary64.exponentBias + (52 : Nat)).toNat) _
      else _) = _
    rw [hexponent, if_neg hinfinite, if_pos hbits]
  have hexponent : (BitVec.ofNat 11 biased).toNat = biased := by
    rw [BitVec.toNat_ofNat, Nat.mod_eq_of_lt (by omega)]
  have hones : BitVec.ofNat 11 biased ≠ -1#11 := by
    intro h
    have hn := congrArg BitVec.toNat h
    rw [hexponent] at hn
    have hall : (-1#11).toNat = 2047 := rfl
    omega
  have hzero : BitVec.ofNat 11 biased ≠ 0#11 := by
    intro h
    have hn := congrArg BitVec.toNat h
    rw [hexponent] at hn
    have hnone : (0#11).toNat = 0 := rfl
    omega
  have hmantissa : (1#1 ++ BitVec.ofNat 52 m).toNat = m := by
    rw [BitVec.toNat_append, ← Nat.shiftLeft_add_eq_or_of_lt (BitVec.ofNat 52 m).isLt,
      BitVec.toNat_ofNat]
    show 2 ^ 52 + m % 2 ^ 52 = m
    omega
  have hsign := unpackSign_packComponents sign (BitVec.ofNat 11 biased) (BitVec.ofNat 52 m)
  have hbiasedBits : unpackExponent (packComponents .binary64 sign (BitVec.ofNat 11 biased)
      (BitVec.ofNat 52 m)) = BitVec.ofNat 11 biased := unpackExponent_packComponents ..
  have hmantissaBits : unpackMantissa (packComponents .binary64 sign (BitVec.ofNat 11 biased)
      (BitVec.ofNat 52 m)) = BitVec.ofNat 52 m := unpackMantissa_packComponents ..
  rw [hpack]
  generalize packComponents .binary64 sign (BitVec.ofNat 11 biased) (BitVec.ofNat 52 m) = packed
    at hsign hbiasedBits hmantissaBits
  rw [← hbiasedBits] at hones hzero hexponent
  rw [← hmantissaBits] at hmantissa
  refine (if_neg hones).trans ((if_neg hzero).trans (finite_congr hsign hmantissa ?_))
  have hbias : (Format.binary64.exponentBias : Int) = 1023 := rfl
  show ((unpackExponent packed).toNat : Int) - (Format.binary64.exponentBias + (52 : Nat)) = e
  rw [hexponent]
  omega

/-! ## Whole numbers and quotients -/

theorem log2_mul_two_pow (hpos : 0 < m) (k : Nat) : (m * 2 ^ k).log2 = m.log2 + k := by
  have hne : m ≠ 0 := Nat.pos_iff_ne_zero.1 hpos
  have hscaled : m * 2 ^ k ≠ 0 := Nat.mul_ne_zero hne (Nat.pos_iff_ne_zero.1 (Nat.two_pow_pos k))
  refine (Nat.log2_eq_iff hscaled).2 ⟨?_, ?_⟩
  · rw [Nat.pow_add]
    exact Nat.mul_le_mul_right _ (Nat.log2_self_le hne)
  · rw [Nat.add_right_comm, Nat.pow_add]
    exact Nat.mul_lt_mul_of_pos_right Nat.lt_log2_self (Nat.two_pow_pos k)

/-- A whole number of at most 53 bits is converted as it is. -/
theorem unpack_toFloat (hpos : 0 < m) (hm : m < 2 ^ 53) :
    m.toUInt64.toFloat.toModel.unpack =
      .finite .positive (m * 2 ^ (52 - m.log2)) (m.log2 - 52)
        (Nat.mul_pos hpos (Nat.two_pow_pos _)) := by
  have hlog : m.log2 < 53 := (Nat.log2_lt (Nat.pos_iff_ne_zero.1 hpos)).2 hm
  have hfull : (m * 2 ^ (52 - m.log2)).log2 = 52 := by
    rw [log2_mul_two_pow hpos]
    omega
  have hnat : m.toUInt64.toNat = m := by
    rw [UInt64.toNat_ofNat']
    exact Nat.mod_eq_of_lt (by omega)
  have hshift : (0 - ((m.log2 : Int) + 0 - 52)).toNat = 52 - m.log2 := by omega
  have hexp : (0 : Int) - (52 - m.log2 : Nat) = m.log2 - 52 := by omega
  have hsign : compare (m : Int) 0 = .gt := Int.compare_eq_gt.2 (by omega)
  have hnormal : UnpackedFloat.normalize .binary64 (m : Nat) 0 .positive =
      roundWithAccuracy .binary64 .positive (m * 2 ^ (52 - m.log2)) (m.log2 - 52) .exact := by
    rw [UnpackedFloat.normalize, hsign]
    simp only [Int.toNat_natCast, UnpackedFloat.round]
    rw [targetExponent_eq (by omega), decreaseExponent, hshift]
    simp only [Nat.shiftLeft_eq, hexp]
  show UnpackedFloat.unpack .binary64 (UnpackedFloat.pack .binary64
    (UnpackedFloat.normalize .binary64 (m.toUInt64.toNat : Nat) 0 .positive)) = _
  rw [hnat, hnormal,
    roundWithAccuracy_exact .positive hfull (by omega) (Nat.mul_pos hpos (Nat.two_pow_pos _))]
  exact unpack_pack_of_normal .positive hfull (by omega) (by omega) _

section Quotient

variable {x y : Float} {n : Nat} {f : Int} {hm : 0 < m} {hn : 0 < n}

theorem divCore_eq (hmlog : m.log2 = 52) (hnlog : n.log2 = 52) (he : -1021 ≤ e - f) :
    divCore .binary64 m e n f =
      (m * 2 ^ 53 / n, e - f - 53, accuracyOfFraction (m * 2 ^ 53 % n) n) := by
  have htarget : Format.binary64.targetExponent (totalExponent m e - totalExponent n f) =
      e - f - 53 := by
    have hmin : Format.binary64.minExponent = -1074 := rfl
    have hbits : (Format.binary64.mantissaBits : Int) = 53 := rfl
    rw [Format.targetExponent, totalExponent, totalExponent, hmin, hbits]
    omega
  have hless : min (e - f) (e - f - 53) = e - f - 53 := by omega
  have hshift : (e - f - (e - f - 53)).toNat = 53 := by omega
  simp only [divCore, htarget, hless, hshift, Nat.shiftLeft_eq]

/-- A quotient is off by less than two units of the last place it is computed to. -/
theorem exists_parts_div (hx : x.toModel.unpack = .finite .positive m e hm)
    (hy : y.toModel.unpack = .finite .positive n f hn) (hmlog : m.log2 = 52) (hnlog : n.log2 = 52)
    (hlow : -1021 ≤ e - f) (hhigh : e - f ≤ 1021) :
    ∃ q j : Nat, parts (x / y) = .finite false ⟨q, e - f - 53 + j⟩ ∧ j ≤ 2 ∧
      m * 2 ^ 53 < (q * 2 ^ j + 2) * n ∧ q * 2 ^ j * n ≤ m * 2 ^ 53 + 2 * n := by
  obtain ⟨hmfloor, hmceil⟩ := (Nat.log2_eq_iff (Nat.pos_iff_ne_zero.1 hm)).1 hmlog
  obtain ⟨hnfloor, hnceil⟩ := (Nat.log2_eq_iff (Nat.pos_iff_ne_zero.1 hn)).1 hnlog
  generalize hp : m * 2 ^ 53 / n = p
  have hpn : p * n ≤ m * 2 ^ 53 := hp ▸ Nat.div_mul_le_self _ n
  have hnp : m * 2 ^ 53 < (p + 1) * n := by
    rw [← hp, Nat.mul_comm (_ + 1)]
    exact Nat.lt_mul_div_succ _ hn
  have hpfloor : 2 ^ 52 ≤ p := by
    rw [← hp, Nat.le_div_iff_mul_le hn]
    omega
  have hpceil : p < 2 ^ 54 := by
    rw [← hp, Nat.div_lt_iff_lt_mul hn]
    omega
  have hp0 : p ≠ 0 := by omega
  have hplow : 52 ≤ p.log2 := (Nat.le_log2 hp0).2 hpfloor
  have hphigh : p.log2 < 54 := (Nat.log2_lt hp0).2 hpceil
  have hunit : 2 ^ (p.log2 - 52) ≤ 2 ^ 1 := Nat.pow_le_pow_right (by decide) (by omega)
  obtain ⟨q, j, hq, hround, hqlog, hj, hbelow, habove⟩ := exists_roundWithAccuracy (e := e - f - 53)
    .positive (accuracyOfFraction (m * 2 ^ 53 % n) n) hplow (by omega)
  refine ⟨q, j, ?_, by omega, ?_, ?_⟩
  · have hdiv : UnpackedFloat.div .binary64 x.toModel.unpack y.toModel.unpack =
        .finite .positive q (e - f - 53 + j) hq := by
      rw [hx, hy]
      show roundWithAccuracy .binary64 .positive (divCore .binary64 m e n f).1
        (divCore .binary64 m e n f).2.1 (divCore .binary64 m e n f).2.2 = _
      rw [divCore_eq hmlog hnlog hlow, hp]
      exact hround
    rw [parts_eq]
    show partsOfUnpacked (UnpackedFloat.unpack .binary64 (UnpackedFloat.pack .binary64
      (UnpackedFloat.div .binary64 x.toModel.unpack y.toModel.unpack))) = _
    rw [hdiv, unpack_pack_of_normal .positive hqlog (by omega) (by omega) hq]
    rfl
  · calc
      m * 2 ^ 53 < (p + 1) * n := hnp
      _ ≤ (q * 2 ^ j + 2) * n := Nat.mul_le_mul_right _ (by omega)
  · calc
      q * 2 ^ j * n ≤ (p + 2) * n := Nat.mul_le_mul_right _ (by omega)
      _ = p * n + 2 * n := Nat.add_mul p 2 n
      _ ≤ m * 2 ^ 53 + 2 * n := Nat.add_le_add_right hpn _

end Quotient

end PETriage.Number
