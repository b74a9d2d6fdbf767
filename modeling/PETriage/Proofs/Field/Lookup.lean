import PETriage.Field.Lookup
import PETriage.Proofs.Number.Digits

/-!
# Lookups that find what was written

A hexadecimal text, a text that is not blank, and a value under one key alone are found again.
-/
namespace PETriage

namespace Keyed

theorem get?_append {κ : Type} [DecidableEq κ] (o p : Keyed κ) (key : κ) :
    get? (o ++ p) key = (o.get? key).or (p.get? key) := by
  induction o with
  | nil => rfl
  | cons f rest ih =>
    obtain ⟨k, v⟩ := f
    simp only [List.cons_append, get?]
    split
    · rfl
    · exact ih

end Keyed

namespace Field

variable {o : Fields} {key s : String} {t : Text} {v : Value}

/-! ## Hexadecimal texts -/

theorem trim_hexPadded (width n : Nat) :
    Text.trim (Number.hexPadded width n).toList = (Number.hexPadded width n).toList :=
  Text.trim_of_none fun c hc => (Number.isPlain_hexPadded width n c hc).blank

theorem isHexMarked_hexPadded (width n : Nat) : isHexMarked (Number.hexPadded width n) = true := by
  rw [isHexMarked, trim_hexPadded, Number.hexPadded, String.toList_ofList]
  rfl

theorem naturalOfText?_hexPadded (width n : Nat) :
    naturalOfText? (Number.hexPadded width n) = some n := by
  simp only [naturalOfText?, isHexMarked_hexPadded, ↓reduceIte, trim_hexPadded,
    Number.readHex?_hexPadded, Option.map_some, Int.toNat_natCast]

/-- A hexadecimal text under one of the keys is read when there is nothing under the others. -/
theorem findSome?_numericLookups_hex {before after : List String} {width n : Nat}
    (hk : o.get? key = some (.str (Number.hexPadded width n)))
    (hb : ∀ k ∈ before, o.get? k = none) (ha : ∀ k ∈ after, o.get? k = none) :
    (numericLookups (before ++ key :: after)).findSome? (· o) = some n := by
  have hdecimal : ((before ++ key :: after).map decimalAt?).findSome? (· o) = none := by
    rw [List.findSome?_map, List.findSome?_eq_none_iff]
    intro k hmem
    show decimalAt? k o = none
    rcases List.mem_append.1 hmem with hmem | hmem
    · rw [decimalAt?, hb k hmem]
    rcases List.mem_cons.1 hmem with rfl | hmem
    · simp only [decimalAt?, hk, Text.whole?_ofString, Option.bind_some, isHexMarked_hexPadded,
        ↓reduceIte]
    · rw [decimalAt?, ha k hmem]
  have hhex : ((before ++ key :: after).map hexAt?).findSome? (· o) = some n := by
    have hbefore : before.findSome? ((· o) ∘ hexAt?) = none := by
      rw [List.findSome?_eq_none_iff]
      intro k hmem
      show hexAt? k o = none
      rw [hexAt?, hb k hmem]
    have hhit : ((· o) ∘ hexAt?) key = some n := by
      show hexAt? key o = some n
      simp only [hexAt?, hk, Text.whole?_ofString, Option.bind_some, isHexMarked_hexPadded,
        ↓reduceIte, naturalOfText?_hexPadded]
    rw [List.findSome?_map, List.findSome?_append, hbefore, Option.none_or, List.findSome?_cons,
      hhit]
  rw [numericLookups, List.findSome?_append, List.findSome?_append, hdecimal, hhex]
  rfl

theorem resolve_hex {spec : Spec Nat} (before : List String) (key : String) (after : List String)
    (extra : List (Fields → Option Nat)) {width n : Nat}
    (hs : spec.lookups = numericLookups (before ++ key :: after) ++ extra)
    (hk : o.get? key = some (.str (Number.hexPadded width n)))
    (hb : ∀ k ∈ before, o.get? k = none) (ha : ∀ k ∈ after, o.get? k = none) :
    spec.resolve (.object o) = n := by
  simp only [Spec.resolve, Spec.find?, hs, List.findSome?_append,
    findSome?_numericLookups_hex hk hb ha, Option.some_or, Option.getD_some]

/-! ## Texts and numbers -/

/-- A whole number under the first key of a numeric field. -/
theorem resolve_int {spec : Spec Nat} (rest : List (Fields → Option Nat)) {n : Int}
    (hs : spec.lookups = decimalAt? key :: rest) (h : o.get? key = some (.int n)) (hn : 0 ≤ n) :
    (spec.resolve (.object o) : Int) = n := by
  obtain ⟨k, rfl⟩ := Int.eq_ofNat_of_zero_le hn
  have hk : decimalAt? key o = some k := by
    rw [decimalAt?, h]
    rfl
  simp only [Spec.resolve, Spec.find?, hs, List.findSome?_cons, hk, Option.getD_some]

theorem textAt?_of_get? (h : o.get? key = some (.str t)) (ht : Text.isBlankText t = false) :
    textAt? key [] o = some t := by
  simp only [textAt?, follow?, h, ht, Bool.false_eq_true, ↓reduceIte]

theorem labelAt?_of_get? (h : o.get? key = some (.str t)) (ht : Text.isBlankText t = false)
    (hn : t.whole?.bind naturalOfText? = none) : labelAt? key o = some t := by
  simp only [labelAt?, textAt?_of_get? h ht, Option.bind_some, hn, Option.isSome_none,
    Bool.false_eq_true, ↓reduceIte]

theorem named_resolve {standard : Text} (rest : List (Fields → Option Text))
    (h : o.get? key = some (.str t)) (ht : Text.isBlankText t = false) :
    (named (textAt? key [] :: rest) standard).resolve (.object o) = t := by
  simp only [named, Spec.resolve, Spec.find?, List.findSome?_cons, textAt?_of_get? h ht,
    Option.getD_some]

theorem named_resolve_blank {standard : Text} (h : o.get? key = some (.str t))
    (ht : Text.isBlankText t = true) :
    (named [textAt? key []] standard).resolve (.object o) = standard := by
  simp only [named, Spec.resolve, Spec.find?, List.findSome?_cons, textAt?, follow?, h, ht,
    ↓reduceIte, List.findSome?_nil, Option.getD_none]

theorem real_resolve (rest : List String) {x : Float} (h : o.get? key = some (.str s))
    (hx : Number.readReal? s.toList = some x) :
    (real (key :: rest)).resolve (.object o) = .ok x := by
  simp only [real, Spec.resolve, Spec.find?, List.map_cons, List.findSome?_cons, realAt?,
    realOfText?, h, hx, Text.whole?_ofString, Option.bind_some, Option.map_some, Option.getD_some]

theorem isBlankText_of_textAt? {path : List String} (h : textAt? key path o = some t) :
    Text.isBlankText t = false := by
  unfold textAt? at h
  split at h
  · split at h
    · cases h
    · cases h
      exact Bool.eq_false_iff.2 ‹_›
  · cases h

theorem isBlankText_of_labelAt? (h : labelAt? key o = some t) :
    Text.isBlankText t = false ∧ t.whole?.bind naturalOfText? = none := by
  rw [labelAt?, Option.bind_eq_some_iff] at h
  obtain ⟨u, ht, h⟩ := h
  split at h
  · cases h
  · cases h
    exact ⟨isBlankText_of_textAt? ht, Option.not_isSome_iff_eq_none.1 ‹_›⟩

/-- What a lookup gives was found or is the standard. -/
theorem Spec.resolve_of_forall {α : Type} (spec : Spec α) {P : α → Prop}
    (hl : ∀ find ∈ spec.lookups, ∀ o a, find o = some a → P a) (hs : P spec.standard) (v : Value) :
    P (spec.resolve v) := by
  unfold Spec.resolve
  split
  · rename_i o
    cases hf : spec.find? o with
    | none => exact hs
    | some a =>
      obtain ⟨find, hmem, h⟩ := List.exists_of_findSome?_eq_some hf
      exact hl find hmem o a h
  · exact hs

theorem isBlankText_named (places : List (String × List String)) {standard : Text}
    (hs : Text.isBlankText standard = false) (v : Value) :
    Text.isBlankText ((named (places.map fun p => textAt? p.1 p.2) standard).resolve v) =
      false := by
  have hl : ∀ find ∈ places.map fun p => textAt? p.1 p.2, ∀ o t, find o = some t →
      Text.isBlankText t = false := by
    intro find hmem o t h
    obtain ⟨p, -, rfl⟩ := List.mem_map.1 hmem
    exact isBlankText_of_textAt? h
  exact Spec.resolve_of_forall (named _ standard) hl hs v

end Field
end PETriage
