import PETriage.Number.Reading
import PETriage.Proofs.Number.Fixed
import PETriage.Proofs.Number.Rounding

/-!
# Texts of fixed length that are read again

A count of millionths is read as its quotient by a million, which is rounded to the nearest
value. The error is far below half a millionth, so the value is written as the same text.
-/
namespace PETriage.Number

variable {cs : List Char} {ds : List Nat} {places units : Nat}

/-! ## The digits of a text with a point -/

theorem dropUnderscores_of_none (h : ∀ c ∈ cs, c ≠ '_') : dropUnderscores cs = some cs := by
  induction cs with
  | nil => rfl
  | cons c rest ih =>
    have hc := h c List.mem_cons_self
    have hrest := ih fun d hd => h d (List.mem_cons_of_mem _ hd)
    rw [dropUnderscores, hrest]
    · rfl
    · exact hc
    · intro d more hrest'
      have hnext := h '_' (by simp [hrest'])
      exact absurd rfl hnext

theorem isDigit_digitChar : ∀ d < 10, (Nat.digitChar d).isDigit = true := by decide

theorem digitChar_sub : ∀ d < 10, (Nat.digitChar d).toNat - 48 = d := by decide

theorem digitChar_eq_zero_iff : ∀ d < 10, (Nat.digitChar d == '0') = (d == 0) := by decide

theorem valueOf_map_digitChar (hd : ∀ d ∈ ds, d < 10) :
    valueOf (ds.map Nat.digitChar) = ofDigits 10 ds := by
  rw [valueOf, List.map_map]
  have hsame : ds.map ((fun c : Char => c.toNat - 48) ∘ Nat.digitChar) = ds.map id :=
    List.map_congr_left fun d h => digitChar_sub d (hd d h)
  rw [hsame, List.map_id]

theorem ofDigits_dropWhile (ds : List Nat) :
    ofDigits 10 (ds.dropWhile (· == 0)) = ofDigits 10 ds := by
  induction ds with
  | nil => rfl
  | cons d rest ih =>
    cases d with
    | zero =>
      rw [List.dropWhile_cons_of_pos (by rfl), ih]
      exact (ofDigits_zeros 1 rest).symm
    | succ d => rw [List.dropWhile_cons_of_neg (by simp)]

theorem withoutZeros_map_digitChar (hd : ∀ d ∈ ds, d < 10) :
    withoutZeros (ds.map Nat.digitChar) = (ds.dropWhile (· == 0)).map Nat.digitChar := by
  induction ds with
  | nil => rfl
  | cons d rest ih =>
    have hzero := digitChar_eq_zero_iff d (hd d List.mem_cons_self)
    have hrest := ih fun e he => hd e (List.mem_cons_of_mem _ he)
    rw [withoutZeros] at hrest ⊢
    rw [List.map_cons, List.dropWhile_cons, List.dropWhile_cons, hzero, hrest]
    split
    · rfl
    · rfl

/-- Within the limit all digits count. -/
theorem decimal_ofDigits_map_digitChar (hd : ∀ d ∈ ds, d < 10) (hlen : ds.length ≤ digitLimit)
    (e : Int) :
    Decimal.ofDigits false (ds.map Nat.digitChar) e = ⟨false, ofDigits 10 ds, e⟩ := by
  have hd' : ∀ d ∈ ds.dropWhile (· == 0), d < 10 :=
    fun d h => hd d ((List.dropWhile_sublist _).subset h)
  have hlen' : ((ds.dropWhile (· == 0)).map Nat.digitChar).length ≤ digitLimit := by
    rw [List.length_map]
    exact Nat.le_trans (List.dropWhile_sublist _).length_le hlen
  simp only [Decimal.ofDigits, withoutZeros_map_digitChar hd, List.take_of_length_le hlen',
    List.drop_of_length_le hlen', List.all_nil, ↓reduceIte, valueOf_map_digitChar hd',
    ofDigits_dropWhile, List.length_nil]
  rw [Int.natCast_zero, Int.add_zero]

/-- Digits before the point and as many behind it as there are places. -/
theorem exists_toList_pointed (hp : 0 < places) (units : Nat) : ∃ front back : List Nat,
    (pointed places units).toList = front.map Nat.digitChar ++ '.' :: back.map Nat.digitChar ∧
      front ≠ [] ∧ back.length = places ∧ (∀ d ∈ front ++ back, d < 10) ∧
      ofDigits 10 (front ++ back) = units ∧
      (front ++ back).length = max (places + 1) (Nat.toDigits 10 units).length := by
  obtain ⟨ds, -, hd, hm, hv⟩ := leftpad_toDigits_eq_map (by decide : 1 < 10) (places + 1) units
  have hlen : ds.length = max (places + 1) (Nat.toDigits 10 units).length := by
    have h := congrArg List.length hm
    rw [List.length_leftpad, List.length_map] at h
    exact h.symm
  have hjoin := List.take_append_drop (ds.length - places) ds
  refine ⟨ds.take (ds.length - places), ds.drop (ds.length - places), ?_, ?_, ?_, ?_, ?_, ?_⟩
  · simp only [pointed, String.toList_ofList, hm, List.length_map, beq_iff_eq,
      Nat.pos_iff_ne_zero.1 hp, ↓reduceIte, List.map_take, List.map_drop]
  · intro h
    have := congrArg List.length h
    rw [List.length_take, List.length_nil] at this
    omega
  · rw [List.length_drop]
    omega
  · rwa [hjoin]
  · rw [hjoin, hv]
  · rw [hjoin, hlen]

/-! ## Reading -/

theorem takeWhile_digits {front : List Nat} (hd : ∀ d ∈ front, d < 10) (rest : List Char) :
    (front.map Nat.digitChar ++ '.' :: rest).takeWhile Char.isDigit = front.map Nat.digitChar ∧
      (front.map Nat.digitChar ++ '.' :: rest).dropWhile Char.isDigit = '.' :: rest := by
  have hall : ∀ c ∈ front.map Nat.digitChar, c.isDigit = true := by
    intro c hc
    obtain ⟨d, h, rfl⟩ := List.mem_map.1 hc
    exact isDigit_digitChar d (hd d h)
  rw [List.takeWhile_append_of_pos hall, List.dropWhile_append_of_pos hall]
  exact ⟨List.append_nil _, rfl⟩

theorem unsignedDecimal?_of_digits {front back : List Nat} (hne : front ≠ [])
    (hd : ∀ d ∈ front ++ back, d < 10) (hlen : (front ++ back).length ≤ digitLimit) :
    unsignedDecimal? false (front.map Nat.digitChar ++ '.' :: back.map Nat.digitChar) =
      some ⟨false, ofDigits 10 (front ++ back), -(back.length : Int)⟩ := by
  have hback : ∀ c ∈ back.map Nat.digitChar, c.isDigit = true := by
    intro c hc
    obtain ⟨d, h, rfl⟩ := List.mem_map.1 hc
    exact isDigit_digitChar d (hd d (List.mem_append_right _ h))
  obtain ⟨hbefore, hrest⟩ := takeWhile_digits (fun d h => hd d (List.mem_append_left _ h))
    (back.map Nat.digitChar)
  have hafter : (back.map Nat.digitChar).takeWhile Char.isDigit = back.map Nat.digitChar :=
    List.takeWhile_eq_self_iff.2 hback
  have htail : (back.map Nat.digitChar).dropWhile Char.isDigit = [] :=
    List.dropWhile_eq_nil_iff.2 hback
  have hsome : (front.map Nat.digitChar).isEmpty = false := by simp [hne]
  simp only [unsignedDecimal?, hbefore, hrest, hafter, htail, hsome, Bool.false_and,
    Bool.false_eq_true, ↓reduceIte, exponent?, Option.map_some, ← List.map_append,
    decimal_ofDigits_map_digitChar hd hlen, List.length_map, Int.zero_sub]

theorem readReal?_of_digits {front back : List Nat} (hne : front ≠ [])
    (hd : ∀ d ∈ front ++ back, d < 10) (hlen : (front ++ back).length ≤ digitLimit) :
    readReal? (front.map Nat.digitChar ++ '.' :: back.map Nat.digitChar) =
      some (Decimal.toFloat ⟨false, ofDigits 10 (front ++ back), -(back.length : Int)⟩) := by
  have hplain : ∀ c ∈ front.map Nat.digitChar ++ '.' :: back.map Nat.digitChar, IsPlain c := by
    intro c hc
    rcases List.mem_append.1 hc with h | h
    · obtain ⟨d, hf, rfl⟩ := List.mem_map.1 h
      have := hd d (List.mem_append_left _ hf)
      exact isPlain_digitChar d (by omega)
    rcases List.mem_cons.1 h with rfl | h
    · decide
    · obtain ⟨d, hb, rfl⟩ := List.mem_map.1 h
      have := hd d (List.mem_append_right _ hb)
      exact isPlain_digitChar d (by omega)
  have hread := unsignedDecimal?_of_digits hne hd hlen
  have hdrop := dropUnderscores_of_none fun c hc => (hplain c hc).underscore
  cases front with
  | nil => exact absurd rfl hne
  | cons d front =>
    have hfirst : d < 10 := hd d (by simp)
    have hsign : signed (Nat.digitChar d :: (front.map Nat.digitChar ++
        '.' :: back.map Nat.digitChar)) = _ := signed_of_plain (isPlain_digitChar d (by omega))
    -- a word starts with a letter, and this text with a digit
    have hword (word : String) (hw : ∀ d < 10, word.toList.head? ≠ some (Nat.digitChar d).toLower)
        (rest : List Char) :
        (String.ofList (((Nat.digitChar d) :: rest).map Char.toLower) == word) = false := by
      rw [beq_eq_false_iff_ne]
      rintro rfl
      refine hw d hfirst ?_
      rw [String.toList_ofList]
      rfl
    have hinf := hword "inf" (by decide) (front.map Nat.digitChar ++ '.' :: back.map Nat.digitChar)
    have hinfinity := hword "infinity" (by decide)
      (front.map Nat.digitChar ++ '.' :: back.map Nat.digitChar)
    have hnan := hword "nan" (by decide) (front.map Nat.digitChar ++ '.' :: back.map Nat.digitChar)
    rw [readReal?, withoutMargin_of_plain hplain, hdrop]
    rw [List.map_cons, List.cons_append] at hread ⊢
    simp only [Option.bind_eq_bind, Option.bind_some, hsign, hinf, hinfinity, hnan, Bool.or_false,
      Bool.false_eq_true, ↓reduceIte, hread, Option.map_some]

/-- A text with a point is read as the decimal that it shows. -/
theorem readReal?_pointed (hp : 0 < places) (hlimit : places < digitLimit)
    (hlen : (Nat.toDigits 10 units).length ≤ digitLimit) :
    readReal? (pointed places units).toList =
      some (Decimal.toFloat ⟨false, units, -(places : Int)⟩) := by
  obtain ⟨front, back, htext, hne, hback, hd, hv, hcount⟩ := exists_toList_pointed hp units
  rw [htext, readReal?_of_digits hne hd (by omega), hv, hback]

/-! ## Rounding back -/

theorem roundedQuotient_of_near {num den n : Nat} (hlow : 2 * (n * den) < 2 * num + den)
    (hhigh : 2 * num < 2 * (n * den) + den) : roundedQuotient num den = n := by
  have hden : 0 < den := by omega
  have hmod : num % den < den := Nat.mod_lt num hden
  have hdiv : num / den * den + num % den = num := Nat.div_add_mod' num den
  have hceil : (num / den + 1) * den = num / den * den + den := Nat.succ_mul _ _
  simp only [roundedQuotient]
  rcases Nat.lt_trichotomy (2 * (num % den)) den with h | h | h
  · have hle : n < num / den + 1 := Nat.lt_of_mul_lt_mul_right (a := den) (by omega)
    have hge : num / den < n + 1 := Nat.lt_of_mul_lt_mul_right (a := den) (by
      rw [Nat.succ_mul]
      omega)
    rw [if_pos h]
    omega
  · have hle : n < num / den + 1 := Nat.lt_of_mul_lt_mul_right (a := den) (by omega)
    have hge : num / den < n := Nat.lt_of_mul_lt_mul_right (a := den) (by omega)
    omega
  · have hle : n < num / den + 1 + 1 := Nat.lt_of_mul_lt_mul_right (a := den) (by
      rw [Nat.succ_mul]
      omega)
    have hge : num / den < n := Nat.lt_of_mul_lt_mul_right (a := den) (by omega)
    rw [if_neg (by omega), if_pos h]
    omega

def million : Float := Float.ofBits 0x412E848000000000

theorem unpack_million :
    million.toModel.unpack = .finite .positive (1000000 * 2 ^ 33) (-33) (by decide) := rfl

theorem toFloat_millionths (hpos : 0 < units) (hu : units < 2 ^ 50) :
    Decimal.toFloat ⟨false, units, -(6 : Nat)⟩ = units.toUInt64.toFloat / million := by
  have hlen : (Nat.toDigits 10 units).length ≤ 16 :=
    (Nat.length_toDigits_le_iff (by decide) (by decide)).2 (by omega)
  have hsmall : ¬((units == 0) = true ∨
      ((Nat.toDigits 10 units).length : Int) + -(6 : Nat) < -400) := by
    simp only [beq_iff_eq]
    omega
  have hlarge : ¬(400 < ((Nat.toDigits 10 units).length : Int) + -(6 : Nat)) := by omega
  have hfast : units < 2 ^ 53 ∧ 6 ≤ 22 := by omega
  simp only [Decimal.toFloat, hsmall, hlarge, ↓reduceIte, Bool.false_eq_true]
  show Float.ofScientific units true 6 = _
  rw [Float.ofScientific, dif_pos hfast]
  rfl

theorem fixed_millionths (hpos : 0 < units) (hu : units < 2 ^ 50) :
    fixed 6 (units.toUInt64.toFloat / million) = pointed 6 units := by
  have hlog : units.log2 < 50 := (Nat.log2_lt (Nat.pos_iff_ne_zero.1 hpos)).2 hu
  obtain ⟨q, j, hparts, hj, hbelow, habove⟩ :=
    exists_parts_div (unpack_toFloat hpos (by omega)) unpack_million
      (by rw [log2_mul_two_pow hpos]; omega) (by rw [log2_mul_two_pow (by decide)]; decide)
      (by omega) (by omega)
  obtain ⟨k, hk⟩ : ∃ k : Nat, (k : Int) = 72 - units.log2 - j := ⟨72 - units.log2 - j, by omega⟩
  have hexp : (units.log2 : Int) - 52 - -33 - 53 + j = -k := by omega
  have hratio : (Dyadic.mk q ((units.log2 : Int) - 52 - -33 - 53 + j)).ratio = (q, 2 ^ k) := by
    have hneg : ¬(0 : Int) ≤ -k := by omega
    have hnat : (- -(k : Int)).toNat = k := by omega
    rw [hexp, Dyadic.ratio, if_neg hneg, hnat]
    rfl
  -- everything in units of the last place that the quotient was computed to
  have hscale : units * 2 ^ (52 - units.log2) * 2 ^ 53 = units * 2 ^ k * 2 ^ j * 2 ^ 33 := by
    rw [Nat.mul_assoc, Nat.mul_assoc, Nat.mul_assoc, ← Nat.pow_add, ← Nat.pow_add, ← Nat.pow_add]
    congr 2
    omega
  have hplace : 2 ^ 23 ≤ 2 ^ k * 2 ^ j := by
    rw [← Nat.pow_add]
    exact Nat.pow_le_pow_right (by decide) (by omega)
  rw [hscale] at hbelow habove
  have hq : q * 1000000 * 2 ^ j = q * 2 ^ j * 1000000 := Nat.mul_right_comm ..
  rw [fixed_of_parts hparts, fixedMagnitude, hratio]
  congr 1
  refine roundedQuotient_of_near ?_ ?_
  · refine Nat.lt_of_mul_lt_mul_right (a := 2 ^ j) ?_
    show 2 * (units * 2 ^ k) * 2 ^ j < (2 * (q * 1000000) + 2 ^ k) * 2 ^ j
    rw [Nat.add_mul, Nat.mul_assoc 2, Nat.mul_assoc 2, hq]
    omega
  · refine Nat.lt_of_mul_lt_mul_right (a := 2 ^ j) ?_
    show 2 * (q * 1000000) * 2 ^ j < (2 * (units * 2 ^ k) + 2 ^ k) * 2 ^ j
    rw [Nat.add_mul, Nat.mul_assoc 2, Nat.mul_assoc 2, hq]
    omega

/-- A count of millionths that is not too large is read as a value that is written as it. -/
theorem fixed_of_readReal?_pointed (hu : units < 2 ^ 50) :
    (readReal? (pointed 6 units).toList).map (fixed 6) = some (pointed 6 units) := by
  have hlen : (Nat.toDigits 10 units).length ≤ digitLimit :=
    Nat.le_trans ((Nat.length_toDigits_le_iff (k := 16) (by decide) (by decide)).2 (by omega))
      (by decide)
  rw [readReal?_pointed (by decide) (by decide) hlen, Option.map_some]
  congr 1
  rcases Nat.eq_zero_or_pos units with rfl | hpos
  · decide +kernel
  · rw [toFloat_millionths hpos hu, fixed_millionths hpos hu]

end PETriage.Number
