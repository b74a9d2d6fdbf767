import PETriage.Proofs.Files.Places
import PETriage.Proofs.Files.Resolution

/-!
# Trees in which everything stands in a folder

In such a tree a path without two points leads to one place, whatever stands there. Making folders
on the way to a place changes nothing else, and what was made stays when it breaks off.
-/
namespace PETriage.Files

namespace Path

/-- No name of the path leads back up. -/
def Plain (path : Path) : Prop := ".." ∉ path.parts

/-- No name of the path is too long. -/
def Short (path : Path) : Prop := ∀ name ∈ path.parts, name.utf8ByteSize ≤ Tree.nameLimit

instance (path : Path) : Decidable path.Plain := inferInstanceAs (Decidable (¬_))

instance (path : Path) : Decidable path.Short := inferInstanceAs (Decidable (∀ _ ∈ _, _))

end Path

namespace Tree

variable {t t' : Tree} {p q r s way home : Place} {path root : Path} {name : String}
  {names : List String} {n : Node} {b : ByteArray}

/-! ## Sound trees -/

/-- Each place is listed once, and the place above it is a folder. -/
structure Sound (t : Tree) : Prop where
  tidy : t.Tidy []
  above : ∀ q name n, t.node? (q ++ [name]) = some n → t.node? q = some .folder

theorem sound_of_items (ht : t.Tidy [])
    (h : ∀ i ∈ t.items, t.node? i.place.dropLast = some .folder) : t.Sound where
  tidy := ht
  above := by
    intro q name n hn
    rw [node?_of_ne_nil (List.append_ne_nil_of_right_ne_nil _ (List.cons_ne_nil _ _))] at hn
    obtain ⟨i, hi, hplace, -⟩ := find?_eq_some hn
    have hq := h i hi
    rwa [hplace, List.dropLast_concat] at hq

theorem ne_folder_of_file (h : t.node? q = some (.file b)) : t.node? q ≠ some .folder := by
  intro hfolder
  cases h.symm.trans hfolder

theorem Sound.folder_of_append (h : t.Sound) (hs : s ≠ []) (hn : t.node? (q ++ s) = some n) :
    t.node? q = some .folder := by
  induction s generalizing q with
  | nil => exact absurd rfl hs
  | cons name s ih =>
    rw [List.append_cons] at hn
    cases s with
    | nil =>
      rw [List.append_nil] at hn
      exact h.above q name n hn
    | cons other s => exact h.above q name _ (ih (List.cons_ne_nil _ _) hn)

theorem Sound.put (h : t.Sound) (hq : t.node? q = some .folder)
    (hn : t.node? (q ++ [name]) ≠ some .folder ∨ n = .folder) :
    (t.put (q ++ [name]) n).Sound where
  tidy := h.tidy.put (List.append_ne_nil_of_right_ne_nil _ (List.cons_ne_nil _ _)) n
  above := by
    have hne : q ++ [name] ≠ [] := List.append_ne_nil_of_right_ne_nil _ (List.cons_ne_nil _ _)
    intro r other m hm
    rw [node?_put t _ _ n hne] at hm ⊢
    have hr : t.node? r = some .folder := by
      split at hm
      · rename_i hplace
        rw [List.append_inj_left' hplace rfl]
        exact hq
      · exact h.above r other m hm
    split
    · rename_i hplace
      subst hplace
      rw [hn.resolve_left fun hnot => hnot hr]
    · exact hr

theorem Sound.without (h : t.Sound) (hq : t.node? q = some (.file b)) : (t.without q).Sound where
  tidy := h.tidy.without q
  above := by
    have hne : q ≠ [] := by
      rintro rfl
      cases hq
    intro r name m hm
    rw [node?_without t q _ hne] at hm ⊢
    split at hm
    · cases hm
    · have hr := h.above r name m hm
      rw [if_neg, hr]
      rintro rfl
      cases hq.symm.trans hr

/-! ## Where a path leads -/

/-- Where a path leads that does not lead back up, whatever is there. -/
def placeOf (t : Tree) (path : Path) : Place :=
  (if path.root = "" then t.here else []) ++ path.parts

theorem placeOf_below (t : Tree) (root : Path) (names : List String) :
    t.placeOf (root.below names) = t.placeOf root ++ names :=
  (List.append_assoc _ _ _).symm

theorem eq_of_start (h : t.start path = .ok s) : s = if path.root = "" then t.here else [] := by
  rw [start] at h
  split at h
  · cases h
  · split at h
    · cases h
    · cases h
      rfl

theorem eq_of_step (h : t.step p name = .ok q) (hn : name ≠ "..") : q = p ++ [name] := by
  rw [step] at h
  split at h
  · cases h
  · cases h
  · rw [if_neg hn] at h
    split at h
    · cases h
    · cases h
      rfl

theorem short_of_step (h : t.step p name = .ok q) (hn : name ≠ "..") :
    name.utf8ByteSize ≤ nameLimit := by
  rw [step] at h
  split at h
  · cases h
  · cases h
  · rw [if_neg hn] at h
    split at h
    · cases h
    · exact Nat.not_lt.1 ‹_›

theorem eq_of_foldlM_step (h : names.foldlM t.step s = .ok p) (hn : ".." ∉ names) :
    p = s ++ names := by
  induction names generalizing s with
  | nil =>
    cases h
    exact (List.append_nil _).symm
  | cons name names ih =>
    rw [List.mem_cons, not_or] at hn
    obtain ⟨q, hq, h⟩ := bind_eq_ok_iff.1 h
    rw [ih h hn.2, eq_of_step hq (Ne.symm hn.1), List.append_assoc, List.singleton_append]

theorem short_of_foldlM_step (h : names.foldlM t.step s = .ok p) (hn : ".." ∉ names) :
    ∀ name ∈ names, name.utf8ByteSize ≤ nameLimit := by
  induction names generalizing s with
  | nil => nofun
  | cons name names ih =>
    rw [List.mem_cons, not_or] at hn
    obtain ⟨q, hq, h⟩ := bind_eq_ok_iff.1 h
    exact List.forall_mem_cons.2 ⟨short_of_step hq (Ne.symm hn.1), ih h hn.2⟩

theorem eq_of_resolve (h : t.resolve path = .ok p) (hp : path.Plain) : p = t.placeOf path := by
  obtain ⟨s, hs, h⟩ := resolve_eq_ok_iff.1 h
  rw [eq_of_foldlM_step h hp, eq_of_start hs, placeOf]

theorem step_ne_nameTooLong (hl : name.utf8ByteSize ≤ nameLimit) :
    t.step p name ≠ .error .nameTooLong := by
  intro h
  rw [step, if_neg (Nat.not_lt.2 hl)] at h
  split at h
  · cases h
  · cases h
  · split at h <;> cases h

theorem foldlM_step_ne_nameTooLong (hl : ∀ name ∈ names, name.utf8ByteSize ≤ nameLimit) :
    names.foldlM t.step s ≠ .error .nameTooLong := by
  induction names generalizing s with
  | nil => nofun
  | cons name names ih =>
    rw [List.forall_mem_cons] at hl
    rw [List.foldlM_cons]
    cases hq : t.step s name with
    | error fault =>
      rintro ⟨⟩
      exact step_ne_nameTooLong hl.1 hq
    | ok q => exact ih hl.2

theorem foldlM_step_of_sound (h : t.Sound) (hn : ".." ∉ names)
    (hl : ∀ name ∈ names, name.utf8ByteSize ≤ nameLimit) (hnode : t.node? (s ++ names) = some n) :
    names.foldlM t.step s = .ok (s ++ names) := by
  induction names generalizing s with
  | nil => exact congrArg Except.ok (List.append_nil s).symm
  | cons name names ih =>
    have hs := h.folder_of_append (List.cons_ne_nil _ _) hnode
    rw [List.append_cons] at hnode ⊢
    rw [List.mem_cons, not_or] at hn
    rw [List.forall_mem_cons] at hl
    have hstep : t.step s name = .ok (s ++ [name]) := by
      rw [step, hs]
      simp only [if_neg (Ne.symm hn.1), if_neg (Nat.not_lt.2 hl.1)]
    exact bind_eq_ok_iff.2 ⟨_, hstep, ih hn.2 hl.2 hnode⟩

/-- In a sound tree what a path leads to depends only on what stands at its place. -/
theorem nodeAt_of_start (h : t.Sound) (hp : path.Plain) (hl : path.Short)
    (hs : t.start path = .ok s) (hn : t.node? (t.placeOf path) = some n) :
    t.nodeAt path = .ok (t.placeOf path, n) := by
  have hplace : t.placeOf path = s ++ path.parts := by rw [placeOf, ← eq_of_start hs]
  rw [hplace] at hn ⊢
  exact nodeAt_eq_ok_iff.2
    ⟨resolve_eq_ok_iff.2 ⟨s, hs, foldlM_step_of_sound h hp hl hn⟩, hn⟩

theorem nodeAt_of_start_none (hp : path.Plain) (hl : path.Short) (hs : t.start path = .ok s)
    (hn : t.node? (t.placeOf path) = none) :
    ∃ fault, t.nodeAt path = .error fault ∧ fault ≠ .nameTooLong := by
  have hresolve : t.resolve path = path.parts.foldlM t.step s := by
    rw [resolve, hs]
    rfl
  cases hr : path.parts.foldlM t.step s with
  | error fault =>
    refine ⟨fault, ?_, ?_⟩
    · rw [nodeAt, hresolve, hr]
      rfl
    · rintro rfl
      exact foldlM_step_ne_nameTooLong hl hr
  | ok p =>
    rw [hr] at hresolve
    rw [← eq_of_resolve hresolve hp] at hn
    exact ⟨.missing, nodeAt_of_none hresolve hn, by decide⟩

theorem nodeAt_of_start_error {fault : Fault} (hs : t.start path = .error fault) :
    t.nodeAt path = .error fault := by
  rw [nodeAt, resolve, hs]
  rfl

/-! ## Folders on the way to a place -/

/-- Folders are made one in another on the way to a place. -/
inductive Opens (way : Place) : Tree → Tree → Prop
  | refl (t : Tree) : Opens way t t
  | folder {t t' : Tree} {q : Place} {name : String} (hq : t.node? q = some .folder)
    (hn : t.node? (q ++ [name]) = none) (hw : q ++ [name] <+: way)
    (h : Opens way (t.put (q ++ [name]) .folder) t') : Opens way t t'

theorem foldersFrom_opens (hn : ".." ∉ names) : Opens (p ++ names) t (t.foldersFrom p names).2 := by
  induction names generalizing p t with
  | nil =>
    rw [foldersFrom]
    split <;> exact .refl t
  | cons name names ih =>
    rw [List.mem_cons, not_or] at hn
    rw [foldersFrom]
    cases hq : t.step p name with
    | error fault => exact .refl t
    | ok q =>
      obtain rfl := eq_of_step hq (Ne.symm hn.1)
      rw [List.append_cons]
      simp only
      split
      · rename_i hnone
        exact .folder (node?_of_step hq) (Option.isNone_iff_eq_none.1 hnone)
          (List.prefix_append _ _) (ih hn.2)
      · exact ih hn.2

theorem ensureFolders_opens (hp : path.Plain) :
    Opens (t.placeOf path) t (t.ensureFolders path).2 := by
  rw [ensureFolders]
  cases hs : t.start path with
  | error fault => exact .refl t
  | ok s =>
    simp only
    split
    · exact .refl t
    · rw [placeOf, ← eq_of_start hs]
      exact foldersFrom_opens hp

namespace Opens

theorem here (h : Opens way t t') : t'.here = t.here := by
  induction h with
  | refl t => rfl
  | folder _ _ _ _ ih => exact ih

theorem sound (h : Opens way t t') (ht : t.Sound) : t'.Sound := by
  induction h with
  | refl t => exact ht
  | folder hq _ _ _ ih => exact ih (ht.put hq (.inr rfl))

theorem node? (h : Opens way t t') (r : Place) : t'.node? r = t.node? r ∨
    (t.node? r = none ∧ t'.node? r = some .folder ∧ r <+: way) := by
  induction h with
  | refl t => exact .inl rfl
  | @folder t t' q name hq hn hw h ih =>
    have hne : q ++ [name] ≠ [] := List.append_ne_nil_of_right_ne_nil _ (List.cons_ne_nil _ _)
    rw [node?_put t _ r _ hne] at ih
    by_cases hr : r = q ++ [name]
    · subst hr
      rw [if_pos rfl] at ih
      exact .inr ⟨hn, ih.resolve_right fun hnone => absurd hnone.1 (Option.some_ne_none _), hw⟩
    · rwa [if_neg hr] at ih

theorem node?_off_way (h : Opens way t t') (hr : ¬r <+: way) : t'.node? r = t.node? r :=
  (h.node? r).resolve_right fun hnew => hr hnew.2.2

theorem file_iff (h : Opens way t t') (r : Place) (b : ByteArray) :
    t'.node? r = some (.file b) ↔ t.node? r = some (.file b) := by
  rcases h.node? r with hsame | ⟨hnone, hfolder, -⟩
  · rw [hsame]
  · rw [hnone, hfolder]
    exact iff_of_false nofun nofun

end Opens

end Tree
end PETriage.Files
