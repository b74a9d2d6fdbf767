import PETriage.Proofs.Number.Digits

/-!
# Decimal texts of fixed length

A text with a point starts with a digit and tells its count of units. Rounding moves no
fraction past a whole number.
-/
namespace PETriage.Number

variable {places units other : Nat}

theorem pointed_head (places units : Nat) :
    ∃ d < 10, (pointed places units).toList.head? = some (Nat.digitChar d) := by
  obtain ⟨ds, hne, hd, hm, -⟩ :=
    leftpad_toDigits_eq_map (by decide : 1 < 10) (places + 1) units
  have hlen : places + 1 ≤ ds.length := by
    have h := congrArg List.length hm
    rw [List.length_leftpad, List.length_map] at h
    omega
  cases ds with
  | nil => exact absurd rfl hne
  | cons d ds =>
    have hcut : (List.map Nat.digitChar (d :: ds)).length - places =
        (ds.length - places) + 1 := by
      rw [List.length_map, List.length_cons] at *
      omega
    refine ⟨d, hd d List.mem_cons_self, ?_⟩
    rw [pointed, String.toList_ofList, hm, hcut, List.map_cons, List.take_succ_cons]
    rfl

theorem ofDigits_eq_of_map_eq {ds es : List Nat} (hd : ∀ d ∈ ds, d < 10) (he : ∀ e ∈ es, e < 10)
    (hds : ds ≠ []) (hes : es ≠ []) (h : ds.map Nat.digitChar = es.map Nat.digitChar) :
    ofDigits 10 ds = ofDigits 10 es := by
  have hread := congrArg (digits? 10) h
  rw [digits?_map_digitChar (by decide) hds hd, digits?_map_digitChar (by decide) hes he] at hread
  rw [Option.some.inj hread]

/-- A point between the digits hides nothing of them. -/
theorem pointed_injective (h : pointed places units = pointed places other) : units = other := by
  obtain ⟨ds, hds, hd, hm, hv⟩ :=
    leftpad_toDigits_eq_map (by decide : 1 < 10) (places + 1) units
  obtain ⟨es, hes, he, hn, hw⟩ :=
    leftpad_toDigits_eq_map (by decide : 1 < 10) (places + 1) other
  have hl := congrArg String.toList h
  rw [pointed, pointed, String.toList_ofList, String.toList_ofList, hm, hn] at hl
  have hlen : (ds.map Nat.digitChar).length = (es.map Nat.digitChar).length := by
    have := congrArg List.length hl
    by_cases hp : places = 0
    · simpa [hp] using this
    · simp only [hp, beq_iff_eq, ↓reduceIte, List.length_append, List.length_take,
        List.length_cons, List.length_drop] at this
      omega
  rw [hlen] at hl
  obtain ⟨hfront, hback⟩ := List.append_inj hl (by rw [List.length_take, List.length_take, hlen])
  have hsame : ds.map Nat.digitChar = es.map Nat.digitChar := by
    rw [← List.take_append_drop ((es.map Nat.digitChar).length - places) (ds.map Nat.digitChar),
      hfront]
    by_cases hp : places = 0
    · rw [hp, Nat.sub_zero, List.take_length, ← hlen, List.drop_length, List.append_nil]
    · simp only [hp, beq_iff_eq, ↓reduceIte, List.cons.injEq, true_and] at hback
      rw [hback, List.take_append_drop]
  rw [← hv, ← hw]
  exact ofDigits_eq_of_map_eq hd he hds hes hsame

/-- Only a finite value without a minus sign is written as digits and a point. -/
theorem parts_of_fixed_eq_pointed {x : Float} (h : fixed places x = pointed places units) :
    ∃ d, parts x = .finite false d ∧ fixedMagnitude places d = pointed places units := by
  obtain ⟨d, hd, hhead⟩ := pointed_head places units
  have hother : ∀ d < 10,
      Nat.digitChar d ≠ 'n' ∧ Nat.digitChar d ≠ 'i' ∧ Nat.digitChar d ≠ '-' := by
    decide
  obtain ⟨hn, hi, hm⟩ := hother d hd
  rw [← h] at hhead
  cases hp : parts x with
  | nan =>
    simp only [fixed, hp] at hhead
    exact absurd (Option.some.inj hhead).symm hn
  | infinite negative =>
    simp only [fixed, hp] at hhead
    cases negative with
    | false => exact absurd (Option.some.inj hhead).symm hi
    | true => exact absurd (Option.some.inj hhead).symm hm
  | finite negative d =>
    cases negative with
    | false => exact ⟨d, rfl, by simpa [fixed, hp, withSign] using h⟩
    | true =>
      simp only [fixed, hp, withSign, ↓reduceIte, String.toList_append] at hhead
      exact absurd (Option.some.inj hhead).symm hm

theorem fixed_of_parts {x : Float} {d : Dyadic} (h : parts x = .finite false d) :
    fixed places x = fixedMagnitude places d := by
  simp only [fixed, h, withSign, Bool.false_eq_true, ↓reduceIte]

theorem le_roundedQuotient {num den bound : Nat} (hd : 0 < den) (h : bound * den ≤ num) :
    bound ≤ roundedQuotient num den := by
  have hq : bound ≤ num / den := (Nat.le_div_iff_mul_le hd).2 h
  simp only [roundedQuotient]
  split
  · exact hq
  split
  · omega
  · omega

theorem roundedQuotient_le {num den bound : Nat} (hd : 0 < den) (h : num ≤ bound * den) :
    roundedQuotient num den ≤ bound := by
  by_cases heq : num = bound * den
  · have hz : num % den = 0 := by rw [heq, Nat.mul_mod_left]
    have hq : num / den = bound := by rw [heq, Nat.mul_div_cancel _ hd]
    simp only [roundedQuotient, hz, hq]
    rw [if_pos (by omega)]
  · have hq : num / den < bound := (Nat.div_lt_iff_lt_mul hd).2 (by omega)
    simp only [roundedQuotient]
    split
    · omega
    split
    · omega
    · omega

end PETriage.Number
