import PETriage.Number.Literal
import PETriage.Number.Rounded
import PETriage.Proofs.Text.Trim

/-!
# Digits written and read

Whole numbers are written as digits with zeros in front, and read back from them. Two numbers
that are written alike with a point are the same.
-/
namespace PETriage.Number

/-- The character of a digit is plain: no blank, no sign and no underscore. -/
structure IsPlain (c : Char) : Prop where
  blank : Text.isBlank c = false
  margin : isMargin c = false
  digit : plainDigit c = c
  sign : c ≠ '-' ∧ c ≠ '+'
  underscore : c ≠ '_'

instance (c : Char) : Decidable (IsPlain c) :=
  decidable_of_iff (Text.isBlank c = false ∧ isMargin c = false ∧ plainDigit c = c ∧
      (c ≠ '-' ∧ c ≠ '+') ∧ c ≠ '_')
    ⟨fun ⟨h1, h2, h3, h4, h5⟩ => ⟨h1, h2, h3, h4, h5⟩,
      fun ⟨h1, h2, h3, h4, h5⟩ => ⟨h1, h2, h3, h4, h5⟩⟩

theorem isPlain_digitChar : ∀ d < 16, IsPlain (Nat.digitChar d) := by decide

theorem hexDigitValue?_digitChar : ∀ d < 16, hexDigitValue? (Nat.digitChar d) = some d := by decide

variable {base : Nat} {ds es : List Nat}

theorem digitIn?_digitChar (hb : base ≤ 16) {d : Nat} (hd : d < base) :
    digitIn? base (Nat.digitChar d) = some d := by
  rw [digitIn?, hexDigitValue?_digitChar d (by omega), Option.bind_some, if_pos hd]

theorem digits?_map_digitChar (hb : base ≤ 16) (hne : ds ≠ []) (hd : ∀ d ∈ ds, d < base) :
    digits? base (ds.map Nat.digitChar) = some ds := by
  induction ds with
  | nil => exact absurd rfl hne
  | cons d rest ih =>
    have hfirst := digitIn?_digitChar hb (hd d List.mem_cons_self)
    cases rest with
    | nil => rw [List.map_singleton, digits?, hfirst]; rfl
    | cons e rest =>
      have hrest := ih (by simp) fun x hx => hd x (List.mem_cons_of_mem _ hx)
      have he := hd e (by simp)
      have hu := (isPlain_digitChar e (by omega)).underscore
      rw [List.map_cons, List.map_cons, digits?]
      · rw [hfirst, Option.bind_eq_bind, Option.bind_some, ← List.map_cons, hrest]
        rfl
      · exact List.cons_ne_nil _ _
      · intro _ h
        exact hu (List.cons.inj h).1

theorem ofDigits_append (ds es : List Nat) :
    ofDigits base (ds ++ es) = es.foldl (fun n d => n * base + d) (ofDigits base ds) :=
  List.foldl_append

theorem ofDigits_zeros (count : Nat) (ds : List Nat) :
    ofDigits base (List.replicate count 0 ++ ds) = ofDigits base ds := by
  have hz : ofDigits base (List.replicate count 0) = 0 := by
    unfold ofDigits
    induction count with
    | zero => rfl
    | succ count ih => rw [List.replicate_succ, List.foldl_cons, Nat.zero_mul, ih]
  rw [ofDigits_append, hz]
  rfl

/-- The digits of a number have its value. -/
theorem toDigits_eq_map (hb : 1 < base) (n : Nat) : ∃ ds, ds ≠ [] ∧ (∀ d ∈ ds, d < base) ∧
    Nat.toDigits base n = ds.map Nat.digitChar ∧ ofDigits base ds = n := by
  induction n using Nat.strongRecOn with
  | ind n ih =>
    by_cases hn : n < base
    · refine ⟨[n], by simp, by simpa using hn, ?_, ?_⟩
      · rw [Nat.toDigits_of_lt_base hn]
        rfl
      · simp [ofDigits]
    · obtain ⟨ds, hne, hd, hm, hv⟩ := ih (n / base) (Nat.div_lt_self (by omega) hb)
      refine ⟨ds ++ [n % base], by simp, ?_, ?_, ?_⟩
      · intro d h
        rcases List.mem_append.1 h with h | h
        · exact hd d h
        · rw [List.mem_singleton.1 h]
          exact Nat.mod_lt n (by omega)
      · rw [Nat.toDigits_of_base_le hb (by omega), hm, List.map_append]
        rfl
      · rw [ofDigits_append, hv]
        exact Nat.div_add_mod' n base

/-- The digits of a positive number start with another digit than zero. -/
theorem exists_toDigits_of_pos {n : Nat} (h : 0 < n) : ∃ d ds, 0 < d ∧ (∀ e ∈ d :: ds, e < 10) ∧
    Nat.toDigits 10 n = (d :: ds).map Nat.digitChar := by
  induction n using Nat.strongRecOn with
  | ind n ih =>
    by_cases hn : n < 10
    · refine ⟨n, [], h, by simpa using hn, ?_⟩
      rw [Nat.toDigits_of_lt_base hn]
      rfl
    · obtain ⟨d, ds, hpos, hd, hm⟩ := ih (n / 10) (by omega) (by omega)
      refine ⟨d, ds ++ [n % 10], hpos, ?_, ?_⟩
      · intro e he
        rw [← List.cons_append] at he
        rcases List.mem_append.1 he with he | he
        · exact hd e he
        · rw [List.mem_singleton.1 he]
          exact Nat.mod_lt n (by decide)
      · rw [Nat.toDigits_of_base_le (by decide) (by omega), hm, ← List.cons_append,
          List.map_append]
        rfl

/-- Zeros in front of the digits change nothing. -/
theorem leftpad_toDigits_eq_map (hb : 1 < base) (width n : Nat) : ∃ ds, ds ≠ [] ∧
    (∀ d ∈ ds, d < base) ∧
    (Nat.toDigits base n).leftpad width '0' = ds.map Nat.digitChar ∧ ofDigits base ds = n := by
  obtain ⟨ds, hne, hd, hm, hv⟩ := toDigits_eq_map hb n
  refine ⟨List.replicate (width - ds.length) 0 ++ ds, by simp [hne], ?_, ?_, ?_⟩
  · intro d h
    rcases List.mem_append.1 h with h | h
    · rw [(List.mem_replicate.1 h).2]
      omega
    · exact hd d h
  · rw [hm, List.leftpad, List.length_map, List.map_append, List.map_replicate]
    rfl
  · rw [ofDigits_zeros, hv]

/-! ## Hexadecimal texts -/

theorem withoutMargin_of_plain {cs : List Char} (h : ∀ c ∈ cs, IsPlain c) :
    withoutMargin cs = cs := by
  have hm : ∀ c ∈ cs, isMargin c = false := fun c hc => (h c hc).margin
  have hr : ∀ c ∈ cs.reverse, isMargin c = false := fun c hc => hm c (List.mem_reverse.1 hc)
  rw [withoutMargin, Text.dropWhile_of_none hm, Text.dropWhile_of_none hr, List.reverse_reverse]
  exact (List.map_congr_left fun c hc => (h c hc).digit).trans (List.map_id cs)

theorem signed_of_plain {c : Char} {cs : List Char} (h : IsPlain c) :
    signed (c :: cs) = (false, c :: cs) := by
  obtain ⟨hm, hp⟩ := h.sign
  rw [signed]
  · exact fun _ h => hm (List.cons.inj h).1
  · exact fun _ h => hp (List.cons.inj h).1

theorem isPlain_hexPadded (width n : Nat) : ∀ c ∈ (hexPadded width n).toList, IsPlain c := by
  obtain ⟨ds, -, hd, hm, -⟩ := leftpad_toDigits_eq_map (by decide : 1 < 16) width n
  rw [hexPadded, String.toList_ofList, hexDigits, hm]
  intro c hc
  rcases List.mem_cons.1 hc with rfl | hc
  · decide
  rcases List.mem_cons.1 hc with rfl | hc
  · decide
  obtain ⟨d, h, rfl⟩ := List.mem_map.1 hc
  exact isPlain_digitChar d (hd d h)

theorem readHex?_hexPadded (width n : Nat) :
    readHex? (hexPadded width n).toList = some (n : Int) := by
  have hplain := isPlain_hexPadded width n
  obtain ⟨ds, hne, hd, hm, hv⟩ := leftpad_toDigits_eq_map (by decide : 1 < 16) width n
  have hread : hexDigits? ('0' :: 'x' :: ds.map Nat.digitChar) = some ds := by
    have hmark : afterMark (ds.map Nat.digitChar) = ds.map Nat.digitChar := by
      cases ds with
      | nil => rfl
      | cons d rest =>
        rw [List.map_cons, afterMark]
        exact fun _ h =>
          (isPlain_digitChar d (hd d List.mem_cons_self)).underscore (List.cons.inj h).1
    rw [hexDigits?, hmark]
    exact digits?_map_digitChar (by decide) hne hd
  rw [readHex?, withoutMargin_of_plain hplain, hexPadded, String.toList_ofList, hexDigits, hm,
    signed_of_plain (by decide)]
  simp only [hread, Option.map_some, applySign, Bool.false_eq_true, ↓reduceIte, hv]

end PETriage.Number
