import PETriage.Field.Catalog
import PETriage.Proofs.Field.Keys
import PETriage.Proofs.Field.Lookup
import PETriage.Proofs.Number.Spelled

/-!
# One number in many encodings

A field of an object may hold its number as a whole number, as a text or inside an object, and
under any of its keys. Which of them it is makes no difference to any lookup of the field, nor to
the lookups of a name under the same keys.
-/
namespace PETriage

namespace Keyed

variable {κ : Type} [DecidableEq κ] {o : Keyed κ} {k k' : κ} {v v' : Value}

/-- The field under `k` written anew, under `k'`. -/
def rewrite (o : Keyed κ) (k k' : κ) (v' : Value) : Keyed κ :=
  o.map fun f => if f.1 = k then (k', v') else f

theorem get?_rewrite_of_ne {j : κ} (hk : j ≠ k) (hk' : j ≠ k') :
    (o.rewrite k k' v').get? j = o.get? j := by
  induction o with
  | nil => rfl
  | cons f rest ih => obtain ⟨a, w⟩ := f; grind [rewrite, get?]

theorem get?_rewrite_old (h : k ≠ k') : (o.rewrite k k' v').get? k = none := by
  induction o with
  | nil => rfl
  | cons f rest ih => obtain ⟨a, w⟩ := f; grind [rewrite, get?]

theorem get?_rewrite_new (h : o.get? k = some v) (hfree : k ≠ k' → o.get? k' = none) :
    (o.rewrite k k' v').get? k' = some v' := by
  induction o with
  | nil => cases h
  | cons f rest ih => obtain ⟨a, w⟩ := f; grind [rewrite, get?]

end Keyed

namespace Field

variable {o o' : Fields} {ks : List String} {k key : String} {n : Nat} {v v' : Value}

/-! ## Encodings -/

/-- A value that is the number itself: a whole number, or a text of it with any blanks around. -/
inductive Encodes (n : Nat) : Value → Prop
  | number : Encodes n (.int n)
  | text {s : String} (h : Number.Written n (Text.trim s.toList)) : Encodes n (.str s)

def innerKeys : List String := ["decimal", "hex", "value"]

/-- A value that holds the number: itself, or an object that says it once or more often. -/
inductive Holds (n : Nat) : Value → Prop
  | plain {v : Value} (h : Encodes n v) : Holds n v
  | inside {fields : Fields} (given : ∃ inner ∈ innerKeys, fields.get? inner ≠ none)
      (each : ∀ inner ∈ innerKeys, ∀ v, fields.get? inner = some v → Encodes n v) :
      Holds n (.object fields)

/-- Nothing, or a value that stands for no number, such as a name. -/
inductive Numberless : Option Value → Prop
  | absent : Numberless none
  | other {v : Value} (h : natural? v = none) (hv : v.fields? = none) : Numberless (some v)

theorem numberless_of_isNone {x : Option Value} (h : x.isNone = true) : Numberless x := by
  cases x with
  | none => exact .absent
  | some v => cases h

theorem encodes_decimal (h : Number.decimalLength n ≤ Number.decimalDigitLimit) :
    Encodes n (.str (Number.decimal n)) := by
  have hs : Number.Spells 10 (Nat.toDigits 10 n) n :=
    Number.spells_toDigits (by decide) (by decide) n
  have htrim : Text.trim (Number.decimal n).toList = Nat.toDigits 10 n := by
    rw [Number.decimal, if_neg (by omega), Int.natAbs_natCast, String.toList_ofList]
    exact Text.trim_of_none fun c hc => (hs.plain c hc).blank
  apply Encodes.text
  rw [htrim]
  exact .decimal hs h

theorem encodes_hexPadded (width n : Nat) : Encodes n (.str (Number.hexPadded width n)) := by
  apply Encodes.text
  rw [trim_hexPadded, Number.hexPadded, String.toList_ofList]
  exact .hex 'x' (.inl rfl) (Number.spells_leftpad (by decide) (by decide) width n)

theorem Encodes.natural? (h : Encodes n v) : natural? v = some n := by
  cases h with
  | number => simp [Field.natural?, naturalOfInt?]
  | text h => exact naturalOfText?_of_written h

/-! ## Lookups under one key -/

/-- The lookups of a numeric field under one of its keys. -/
def lookupsAt (key : String) : List (Fields → Option Nat) :=
  [decimalAt? key, hexAt? key, nestedAt? key ["decimal"], nestedAt? key ["hex"],
    nestedAt? key ["value"]]

theorem mem_numericLookups {find : Fields → Option Nat} :
    find ∈ numericLookups ks ↔ ∃ k ∈ ks, find ∈ lookupsAt k := by
  simp only [numericLookups, lookupsAt, List.mem_append, List.mem_map, List.mem_flatMap,
    List.mem_cons, List.not_mem_nil, or_false]
  constructor
  · rintro ((⟨k, hk, rfl⟩ | ⟨k, hk, rfl⟩) | ⟨k, hk, h⟩)
    · exact ⟨k, hk, .inl rfl⟩
    · exact ⟨k, hk, .inr (.inl rfl)⟩
    · exact ⟨k, hk, .inr (.inr h)⟩
  · rintro ⟨k, hk, rfl | rfl | h⟩
    · exact .inl (.inl ⟨k, hk, rfl⟩)
    · exact .inl (.inr ⟨k, hk, rfl⟩)
    · exact .inr ⟨k, hk, h⟩

theorem follow?_pair (o : Fields) (key inner : String) :
    follow? o key [inner] = (o.get? key).bind (·.field? inner) := by
  simp only [follow?]
  cases o.get? key with
  | none => rfl
  | some v => cases v <;> rfl

theorem nestedAt?_of_get? (inner : String) (h : o.get? key = some v) :
    nestedAt? key [inner] o = (v.field? inner).bind natural? := by
  rw [nestedAt?, follow?_pair, h, Option.bind_some]

theorem lookupsAt_congr (h : o.get? key = o'.get? key) :
    ∀ find ∈ lookupsAt key, find o = find o' := by
  simp [lookupsAt, decimalAt?, hexAt?, nestedAt?, follow?, h]

theorem lookupsAt_of_numberless (h : Numberless (o.get? key)) :
    ∀ find ∈ lookupsAt key, find o = none := by
  generalize hx : o.get? key = x at h
  cases h with
  | absent =>
    simp [lookupsAt, decimalAt?, hexAt?, nestedAt?, follow?, hx]
  | @other v hn hv =>
    have hnested : ∀ inner, nestedAt? key [inner] o = none := by
      intro inner
      rw [nestedAt?_of_get? inner hx, Value.field?, hv]
      rfl
    have hplain : decimalAt? key o = none ∧ hexAt? key o = none := by
      cases v with
      | str t =>
        have ht : t.whole?.bind naturalOfText? = none := hn
        cases hw : t.whole? with
        | none => simp only [decimalAt?, hexAt?, hx, hw, Option.bind_none, and_self]
        | some s =>
          rw [hw, Option.bind_some] at ht
          simp only [decimalAt?, hexAt?, hx, hw, ht, Option.bind_some, ite_self, and_self]
      | _ => exact ⟨by simpa only [decimalAt?, hx] using hn, by simp only [hexAt?, hx]⟩
    simp [lookupsAt, hnested, hplain]

/-- Under a key that holds a number every lookup finds that number or nothing, and one finds it. -/
theorem lookupsAt_of_holds (h : o.get? key = some v) (hv : Holds n v) :
    (∀ find ∈ lookupsAt key, find o = none ∨ find o = some n) ∧
      ∃ find ∈ lookupsAt key, find o = some n := by
  have hnested := fun inner => nestedAt?_of_get? inner h
  cases hv with
  | plain hv =>
    have hn := hv.natural?
    cases hv with
    | number =>
      have hd : decimalAt? key o = some n := by simpa only [decimalAt?, h] using hn
      have hh : hexAt? key o = none := by simp only [hexAt?, h]
      simp [lookupsAt, hd, hh, hnested, Value.field?, Value.fields?]
    | @text s ht =>
      have hs : naturalOfText? s = some n := hn
      have hd : decimalAt? key o = if isHexMarked s then none else some n := by
        simp only [decimalAt?, h, Text.whole?_ofString, Option.bind_some, hs]
      have hh : hexAt? key o = if isHexMarked s then some n else none := by
        simp only [hexAt?, h, Text.whole?_ofString, Option.bind_some, hs]
      cases hm : isHexMarked s <;>
        simp [lookupsAt, hd, hh, hm, hnested, Value.field?, Value.fields?]
  | @inside fields given each =>
    have hd : decimalAt? key o = none := by simp only [decimalAt?, h, natural?]
    have hh : hexAt? key o = none := by simp only [hexAt?, h]
    have hinner : ∀ inner ∈ innerKeys, ∀ v, fields.get? inner = some v →
        nestedAt? key [inner] o = some n := by
      intro inner hmem v hv
      simp only [hnested, Value.field?, Value.fields?, Option.bind_some, hv,
        (each inner hmem v hv).natural?]
    have hone : ∀ inner ∈ innerKeys,
        nestedAt? key [inner] o = none ∨ nestedAt? key [inner] o = some n := by
      intro inner hmem
      cases hv : fields.get? inner with
      | none =>
        left
        simp only [hnested, Value.field?, Value.fields?, Option.bind_some, hv, Option.bind_none]
      | some v => exact .inr (hinner inner hmem v hv)
    refine ⟨?_, ?_⟩
    · simpa [lookupsAt, innerKeys, hd, hh] using hone
    · obtain ⟨inner, hmem, hne⟩ := given
      obtain ⟨v, hv⟩ := Option.ne_none_iff_exists'.1 hne
      refine ⟨nestedAt? key [inner], ?_, hinner inner hmem v hv⟩
      simp only [innerKeys, List.mem_cons, List.not_mem_nil, or_false] at hmem
      rcases hmem with rfl | rfl | rfl <;> simp [lookupsAt]

/-! ## Lookups under all keys -/

theorem findSome?_congr {α : Type} {finds : List (Fields → Option α)}
    (h : ∀ find ∈ finds, find o = find o') : finds.findSome? (· o) = finds.findSome? (· o') := by
  induction finds with
  | nil => rfl
  | cons find rest ih =>
    simp only [List.forall_mem_cons] at h
    rw [List.findSome?_cons, List.findSome?_cons, h.1, ih h.2]

/-- The field has the same value in both objects. -/
abbrev Spec.Agrees {α : Type} (spec : Spec α) (o o' : Fields) : Prop :=
  spec.resolve (.object o) = spec.resolve (.object o')

theorem Spec.agrees_of_forall {α : Type} {spec : Spec α}
    (h : ∀ find ∈ spec.lookups, find o = find o') : spec.Agrees o o' := by
  simp only [Spec.Agrees, Spec.resolve, Spec.find?, findSome?_congr h]

theorem findSome?_eq_some_of_forall {finds : List (Fields → Option Nat)}
    (hall : ∀ find ∈ finds, find o = none ∨ find o = some n)
    (hex : ∃ find ∈ finds, find o = some n) :
    finds.findSome? (· o) = some n := by
  induction finds with
  | nil => simp at hex
  | cons find rest ih =>
    simp only [List.forall_mem_cons] at hall
    rw [List.findSome?_cons]
    rcases hall.1 with hn | hn
    · rw [hn]
      refine ih hall.2 ?_
      simpa [hn] using hex
    · rw [hn]

theorem findSome?_numericLookups (hk : k ∈ ks) (h : o.get? k = some v) (hv : Holds n v)
    (alone : ∀ j ∈ ks, j ≠ k → Numberless (o.get? j)) :
    (numericLookups ks).findSome? (· o) = some n := by
  obtain ⟨hall, find, hfind, hn⟩ := lookupsAt_of_holds h hv
  apply findSome?_eq_some_of_forall
  · intro find hmem
    obtain ⟨j, hj, hmem⟩ := mem_numericLookups.1 hmem
    by_cases hjk : j = k
    · subst hjk
      exact hall find hmem
    · exact .inl (lookupsAt_of_numberless (alone j hj hjk) find hmem)
  · exact ⟨find, mem_numericLookups.2 ⟨k, hk, hfind⟩, hn⟩

theorem findSome?_numericLookups_eq_none (h : ∀ k ∈ ks, Numberless (o.get? k)) :
    (numericLookups ks).findSome? (· o) = none := by
  refine List.findSome?_eq_none_iff.2 fun find hmem => ?_
  obtain ⟨k, hk, hmem⟩ := mem_numericLookups.1 hmem
  exact lookupsAt_of_numberless (h k hk) find hmem

/-! ## The same number twice -/

/-- The two objects give the same number under the keys of a field: they have the same values
there, or the number stands under one key and is written in another way, or under another key that
was free. A value beside it that is no number stays what it is. -/
inductive SameNumber (ks : List String) (o o' : Fields) : Prop
  | same (h : ∀ k ∈ ks, o.get? k = o'.get? k)
  | rewritten {n : Nat} {k k' : String} {v v' : Value} (hk : k ∈ ks) (hk' : k' ∈ ks)
      (before : o.get? k = some v) (hv : Holds n v) (after : o'.get? k' = some v')
      (hv' : Holds n v') (moved : k ≠ k' → o.get? k' = none ∧ o'.get? k = none)
      (alone : ∀ j ∈ ks, j ≠ k → Numberless (o.get? j))
      (others : ∀ j ∈ ks, j ≠ k → j ≠ k' → o.get? j = o'.get? j)

theorem SameNumber.findSome? (h : SameNumber ks o o') :
    (numericLookups ks).findSome? (· o) = (numericLookups ks).findSome? (· o') := by
  cases h with
  | same h =>
    apply findSome?_congr
    intro find hmem
    obtain ⟨k, hk, hmem⟩ := mem_numericLookups.1 hmem
    exact lookupsAt_congr (h k hk) find hmem
  | @rewritten n k k' v v' hk hk' before hv after hv' moved alone others =>
    have alone' : ∀ j ∈ ks, j ≠ k' → Numberless (o'.get? j) := by
      intro j hj hjk'
      by_cases hjk : j = k
      · subst hjk
        rw [(moved hjk').2]
        exact .absent
      · rw [← others j hj hjk hjk']
        exact alone j hj hjk
    rw [findSome?_numericLookups hk before hv alone, findSome?_numericLookups hk' after hv' alone']

/-- What looks at a key alone and sees no number there sees no difference. -/
theorem SameNumber.unseen {β : Type} (h : SameNumber ks o o') (see : Option Value → β)
    (hsee : ∀ n v, Holds n v → see (some v) = see none) :
    ∀ key ∈ ks, see (o.get? key) = see (o'.get? key) := by
  intro key hkey
  cases h with
  | same h => rw [h key hkey]
  | @rewritten n k k' v v' hk hk' before hv after hv' moved alone others =>
    by_cases hkk : key = k
    · subst hkk
      rw [before, hsee n v hv]
      by_cases hkk' : key = k'
      · rw [hkk', after, hsee n v' hv']
      · rw [(moved hkk').2]
    · by_cases hkk' : key = k'
      · subst hkk'
        rw [after, hsee n v' hv', (moved (Ne.symm hkk)).1]
      · rw [others key hkey hkk hkk']

/-! ## Fields of a record -/

namespace SameNumber

variable {name : String} {aliases : List String}

theorem numeric (h : SameNumber (keys name aliases) o o') : (numeric name aliases).Agrees o o' := by
  simp only [Spec.Agrees, Spec.resolve, Spec.find?, Field.numeric, h.findSome?]

theorem numericOr {inner : String} (h : SameNumber (keys name aliases) o o')
    (hi : nestedAt? key [inner] o = nestedAt? key [inner] o') :
    (numericOr name aliases key inner).Agrees o o' := by
  simp only [Spec.Agrees, Spec.resolve, Spec.find?, Field.numericOr, List.findSome?_append,
    h.findSome?, List.findSome?_cons, hi, List.findSome?_nil]

theorem optional (h : SameNumber (keys name aliases) o o') :
    (Field.numeric name aliases).optional.Agrees o o' := by
  have hmap : ∀ o : Fields, (Field.numeric name aliases).optional.find? o =
      ((Field.numeric name aliases).find? o).map some := by
    intro o
    simp only [Spec.find?, Spec.optional, List.findSome?_map, List.map_findSome?]
    rfl
  simp only [Spec.Agrees, Spec.resolve, hmap]
  simp only [Spec.find?, Field.numeric, h.findSome?]

end SameNumber

/-- A text that is neither blank nor a number. -/
def label? (v : Value) : Option Text :=
  v.text?.bind fun t =>
    if Text.isBlankText t || (t.whole?.bind naturalOfText?).isSome then none else some t

theorem labelAt?_eq (key : String) (o : Fields) : labelAt? key o = (o.get? key).bind label? := by
  simp only [labelAt?, textAt?, follow?]
  cases o.get? key with
  | none => rfl
  | some v =>
    cases v with
    | str t => cases ht : Text.isBlankText t <;> simp [label?, Value.text?, ht]
    | _ => rfl

theorem Holds.label? (h : Holds n v) : label? v = none := by
  cases h with
  | plain h =>
    cases h with
    | number => rfl
    | text h => simp [Field.label?, Value.text?, naturalOfText?_of_written h]
  | inside => rfl

theorem SameNumber.labelAt? (h : SameNumber ks o o') (hkey : key ∈ ks) :
    labelAt? key o = labelAt? key o' := by
  rw [labelAt?_eq, labelAt?_eq]
  exact h.unseen (fun x => x.bind Field.label?) (fun n v hv => hv.label?) key hkey

/-- Two records that say the same: the same numbers under the keys of every numeric field, parts
that are related each in its own way, and the same values under all other keys. -/
structure Alike (numbers : List (List String)) (parts : List (String × (Value → Value → Prop)))
    (o o' : Fields) : Prop where
  number : ∀ ks ∈ numbers, SameNumber ks o o'
  part : ∀ p ∈ parts, Option.Rel p.2 (o.get? p.1) (o'.get? p.1)
  other : ∀ key : String, (∀ ks ∈ numbers, key ∉ ks) → (∀ p ∈ parts, key ≠ p.1) →
    o.get? key = o'.get? key

theorem get?_rewrite_of_ne {j k k' : String} (h : j ≠ k) (h' : j ≠ k') :
    (o.rewrite k k' v).get? j = o.get? j :=
  Keyed.get?_rewrite_of_ne (Text.ofString_inj.not.2 h) (Text.ofString_inj.not.2 h')

/-- A record with one of its numbers written anew is like the one before. -/
theorem Alike.rewrite {numbers : List (List String)}
    {parts : List (String × (Value → Value → Prop))}
    (hks : ks ∈ numbers) {k' : String} (hk : k ∈ ks) (hk' : k' ∈ ks) (before : o.get? k = some v)
    (hv : Holds n v) (hv' : Holds n v') (free : k ≠ k' → o.get? k' = none)
    (alone : ∀ j ∈ ks, j ≠ k → Numberless (o.get? j))
    (apart : ∀ js ∈ numbers, js = ks ∨ k ∉ js ∧ k' ∉ js)
    (hparts : ∀ p ∈ parts, p.1 ≠ k ∧ p.1 ≠ k' ∧ ∀ v, p.2 v v) :
    Alike numbers parts o (o.rewrite k k' v') where
  number := by
    intro js hjs
    rcases apart js hjs with rfl | ⟨hnk, hnk'⟩
    · exact .rewritten hk hk' before hv
        (Keyed.get?_rewrite_new before fun hne => free (Text.ofString_inj.not.1 hne)) hv'
        (fun hne => ⟨free hne, Keyed.get?_rewrite_old (Text.ofString_inj.not.2 hne)⟩) alone
        fun j _ hj hj' => (get?_rewrite_of_ne hj hj').symm
    · refine .same fun j hj => (get?_rewrite_of_ne ?_ ?_).symm
      · rintro rfl
        exact hnk hj
      · rintro rfl
        exact hnk' hj
  part := by
    intro p hp
    obtain ⟨hpk, hpk', hrefl⟩ := hparts p hp
    rw [get?_rewrite_of_ne hpk hpk']
    cases o.get? p.1 with
    | none => exact .none
    | some v => exact .some (hrefl v)
  other := by
    intro key hkey _
    refine (get?_rewrite_of_ne ?_ ?_).symm
    · rintro rfl
      exact hkey ks hks hk
    · rintro rfl
      exact hkey ks hks hk'

/-- The same value twice, or two records that are alike. -/
inductive SameRecord (alike : Fields → Fields → Prop) : Value → Value → Prop
  | same (v : Value) : SameRecord alike v v
  | object {o o' : Fields} (h : alike o o') : SameRecord alike (.object o) (.object o')

/-- The same value twice, or two lists of as many items that are related one by one. -/
inductive SameList (alike : Value → Value → Prop) : Value → Value → Prop
  | same (v : Value) : SameList alike v v
  | list {vs vs' : List Value} (h : List.Forall₂ alike vs vs') :
      SameList alike (.list vs) (.list vs')

/-- The same value twice, or two plain encodings of one number. -/
inductive SamePlain : Value → Value → Prop
  | same (v : Value) : SamePlain v v
  | rewritten {n : Nat} {v v' : Value} (h : Encodes n v) (h' : Encodes n v') : SamePlain v v'

theorem SamePlain.natural? (h : SamePlain v v') : natural? v = natural? v' := by
  cases h with
  | same => rfl
  | rewritten h h' => rw [h.natural?, h'.natural?]

end Field
end PETriage
