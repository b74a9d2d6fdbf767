import PETriage.Proofs.Field.Lookup

/-!
# What decides a field

A field has the value that its first successful lookup finds, and its standard when none finds
anything. A field for a binary value passes over all that is no number, and fails when it comes to
a whole number that is too large.
-/
namespace PETriage.Field

variable {α : Type} {o : Fields} {key : String}

/-- The field has this value in the object: the first lookup that finds anything finds it, or
none does and it is the standard. -/
inductive Spec.Gives (spec : Spec α) (o : Fields) : α → Prop
  | found {before after : List (Fields → Option α)} {find : Fields → Option α} {a : α}
    (h : spec.lookups = before ++ find :: after) (hfind : find o = some a)
    (hbefore : ∀ earlier ∈ before, earlier o = none) : Gives spec o a
  | standard (h : ∀ find ∈ spec.lookups, find o = none) : Gives spec o spec.standard

theorem Spec.resolve_gives (spec : Spec α) (o : Fields) :
    spec.Gives o (spec.resolve (.object o)) := by
  cases h : spec.find? o with
  | none =>
    have hresolve : spec.resolve (.object o) = spec.standard := by
      rw [Spec.resolve, h, Option.getD_none]
    rw [hresolve]
    exact .standard (List.findSome?_eq_none_iff.1 h)
  | some a =>
    have hresolve : spec.resolve (.object o) = a := by rw [Spec.resolve, h, Option.getD_some]
    obtain ⟨before, find, after, hlookups, hfind, hbefore⟩ := List.findSome?_eq_some_iff.1 h
    rw [hresolve]
    exact .found hlookups hfind hbefore

/-! ## Binary values -/

/-- A whole number that rounds to no finite binary value. -/
def TooLarge : Option Value → Prop
  | some (.int n) => Number.overflowBound ≤ n.natAbs
  | _ => False

/-- Nothing that counts as a number: no value, a null, a truth value, a list or an object, or a
text that does not read as a number. -/
def Unnumeric : Option Value → Prop
  | some (.int _) | some (.float _) => False
  | some (.str t) => realOfText? t = none
  | _ => True

theorem not_tooLarge_iff {v : Option Value} :
    ¬TooLarge v ↔ ∀ n : Int, v = some (.int n) → n.natAbs < Number.overflowBound := by
  cases v with
  | none => exact iff_of_true not_false nofun
  | some v =>
    cases v with
    | int n => simp only [TooLarge, Nat.not_le, Option.some.injEq, Value.int.injEq, forall_eq']
    | _ => exact iff_of_true not_false nofun

theorem ofInteger?_eq_none_iff {n : Int} :
    Number.ofInteger? n = none ↔ Number.overflowBound ≤ n.natAbs := by
  unfold Number.ofInteger?
  split
  · exact iff_of_false nofun (Nat.not_le.2 ‹_›)
  · exact iff_of_true rfl (Nat.le_of_not_lt ‹_›)

theorem realAt?_eq_none_iff : realAt? key o = none ↔ Unnumeric (o.get? key) := by
  rw [realAt?]
  cases o.get? key with
  | none => exact iff_of_true rfl trivial
  | some v =>
    cases v with
    | int n =>
      refine iff_of_false ?_ not_false
      dsimp only
      cases Number.ofInteger? n <;> exact Option.some_ne_none _
    | float x => exact iff_of_false (Option.some_ne_none _) not_false
    | str t => exact Option.map_eq_none_iff
    | _ => exact iff_of_true rfl trivial

theorem realAt?_eq_error_iff {e : RangeError} :
    realAt? key o = some (.error e) ↔ TooLarge (o.get? key) := by
  rw [realAt?]
  cases o.get? key with
  | none => exact iff_of_false (by simp) not_false
  | some v =>
    cases v with
    | int n =>
      dsimp only [TooLarge]
      rw [← ofInteger?_eq_none_iff]
      cases Number.ofInteger? n with
      | none => cases e; exact iff_of_true rfl rfl
      | some x => exact iff_of_false (by simp) (Option.some_ne_none x)
    | float x => exact iff_of_false (by simp) not_false
    | str t =>
      refine iff_of_false ?_ not_false
      dsimp only
      cases realOfText? t <;> simp
    | _ => exact iff_of_false (by simp) not_false

/-- A field for a binary value fails at the first key that is not passed over, if there is a whole
number that is too large. -/
theorem real_resolve_eq_error_iff {ks : List String} {e : RangeError} :
    (real ks).resolve (.object o) = .error e ↔
      ∃ (before : List String) (key : String) (after : List String), ks = before ++ key :: after ∧
      (∀ k ∈ before, Unnumeric (o.get? k)) ∧ TooLarge (o.get? key) := by
  have hresolve : (real ks).resolve (.object o) =
      (ks.findSome? (realAt? · o)).getD (.ok 0.0) := by
    rw [Spec.resolve, Spec.find?, real, List.findSome?_map]
    rfl
  have herror : (ks.findSome? (realAt? · o)).getD (.ok 0.0) = .error e ↔
      ks.findSome? (realAt? · o) = some (.error e) := by
    cases ks.findSome? (realAt? · o) with
    | none => exact iff_of_false (by simp) (by simp)
    | some x => exact (Option.some.injEq ..).symm.to_iff
  rw [hresolve, herror, List.findSome?_eq_some_iff]
  simp only [realAt?_eq_error_iff, realAt?_eq_none_iff]
  constructor
  · rintro ⟨before, key, after, hks, hlarge, hbefore⟩
    exact ⟨before, key, after, hks, hbefore, hlarge⟩
  · rintro ⟨before, key, after, hks, hbefore, hlarge⟩
    exact ⟨before, key, after, hks, hlarge, hbefore⟩

theorem real_singleton_eq_error_iff {e : RangeError} :
    (real [key]).resolve (.object o) = .error e ↔ TooLarge (o.get? key) := by
  rw [real_resolve_eq_error_iff]
  constructor
  · rintro ⟨before, k, after, hkeys, -, h⟩
    cases before with
    | nil =>
      cases hkeys
      exact h
    | cons k before => simp at hkeys
  · intro h
    exact ⟨[], key, [], rfl, nofun, h⟩

end PETriage.Field
