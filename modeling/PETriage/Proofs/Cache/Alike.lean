import PETriage.Proofs.Cache.Lookup
import PETriage.Proofs.Files.Sound

/-!
# What lookups and clearing look at

They look at the places of entries alone. Trees in which the same stands in these places answer
every run of such calls alike, whatever else there is in them.
-/
namespace PETriage.Cache.Disk

open Files (Path Place Node Tree Item)

variable {t t' : Tree} {root path : Path} {home p q r : Place} {key name folder : String}
  {room : Option Nat}
  {n : Node} {b : ByteArray} {calls : List Call}

/-! ## Places of entries -/

/-- The place is that of an entry in some folder below the root. -/
def isEntryPlace (home q : Place) : Bool :=
  match Tree.below? home q with
  | some [_, name] => isEntryName name
  | _ => false

theorem isEntryPlace_iff : isEntryPlace home q = true ↔
    ∃ folder name, q = home ++ [folder, name] ∧ isEntryName name = true := by
  rw [isEntryPlace]
  constructor
  · intro h
    split at h
    · rename_i folder name hb
      exact ⟨folder, name, Tree.below?_eq_some_iff.1 hb, h⟩
    · cases h
  · rintro ⟨folder, name, hq, hname⟩
    rw [Tree.below?_eq_some_iff.2 hq]
    exact hname

theorem ne_nil_of_isEntryPlace (h : isEntryPlace home q = true) : q ≠ [] := by
  obtain ⟨folder, name, rfl, -⟩ := isEntryPlace_iff.1 h
  exact List.append_ne_nil_of_right_ne_nil _ (List.cons_ne_nil _ _)

theorem isEntryName_iff : isEntryName name = true ↔ ∃ key, name = entryName key := by
  constructor
  · intro h
    rw [isEntryName, List.isSuffixOf_iff_suffix] at h
    obtain ⟨cs, hcs⟩ := h
    refine ⟨String.ofList cs, ?_⟩
    rw [entryName, ← String.toList_inj, String.toList_append, String.toList_ofList, hcs]
  · rintro ⟨key, rfl⟩
    exact isEntryName_entryName key

theorem isEntryPlace_entryPlace (home : Place) (key : String) :
    isEntryPlace home (entryPlace home key) = true :=
  isEntryPlace_iff.2 ⟨_, _, rfl, isEntryName_entryName key⟩

theorem isEntryPlace_temporaryPlace (home : Place) (key : String) :
    isEntryPlace home (temporaryPlace home key) = false := by
  refine Bool.eq_false_iff.2 fun h => ?_
  obtain ⟨folder, name, hq, hname⟩ := isEntryPlace_iff.1 h
  obtain ⟨other, rfl⟩ := isEntryName_iff.1 hname
  have hnames := List.append_cancel_left hq
  exact temporary_ne_entryName key other (List.cons.inj (List.cons.inj hnames).2).1

theorem isEntryPlace_on_way (h : q <+: home ++ [folder]) : isEntryPlace home q = false := by
  refine Bool.eq_false_iff.2 fun hq => ?_
  obtain ⟨other, name, rfl, -⟩ := isEntryPlace_iff.1 hq
  have hlength := h.length_le
  simp only [List.length_append, List.length_cons, List.length_nil] at hlength
  omega

/-- What is listed of the places of entries. -/
def entryItems (home : Place) (t : Tree) : List Item :=
  t.items.filter fun i => isEntryPlace home i.place

theorem find?_filter_of {P : Place → Bool} (hq : P q = true) (depth : Nat) (items : List Item) :
    Tree.find? depth q (items.filter fun i => P i.place) = Tree.find? depth q items := by
  induction items with
  | nil => rfl
  | cons i items ih =>
    rw [List.filter_cons, Tree.find?]
    by_cases hi : i.isAt depth q = true
    · have hplace : i.place = q := by
        simp only [Item.isAt, Bool.and_eq_true, beq_iff_eq] at hi
        exact hi.2
      rw [if_pos hi, hplace, if_pos hq, Tree.find?, if_pos hi]
    · rw [if_neg hi]
      split
      · rw [Tree.find?, if_neg hi, ih]
      · exact ih

theorem node?_eq_find?_entryItems (hq : isEntryPlace home q = true) :
    t.node? q = Tree.find? q.length q (entryItems home t) := by
  rw [Tree.node?_of_ne_nil (ne_nil_of_isEntryPlace hq), entryItems, find?_filter_of hq]

theorem entryItems_without (home : Place) (t : Tree) (q : Place) :
    entryItems home (t.without q) = (entryItems home t).filter fun i => !i.isAt q.length q := by
  rw [entryItems, entryItems, Tree.without, List.filter_comm]

theorem entryItems_put (hq : isEntryPlace home q = false) (t : Tree) (n : Node) :
    entryItems home (t.put q n) = entryItems home t := by
  have hkept : entryItems home (t.without q) = entryItems home t := by
    rw [entryItems_without, List.filter_eq_self]
    intro i hi
    have hplace := (List.mem_filter.1 hi).2
    rw [Bool.not_eq_true', Item.isAt]
    refine Bool.eq_false_iff.2 fun h => ?_
    simp only [Bool.and_eq_true, beq_iff_eq] at h
    rw [h.2, hq] at hplace
    cases hplace
  rw [← hkept, entryItems, entryItems, Tree.put]
  exact List.filter_cons_of_neg (by rw [Item.ofPlace, hq]; exact Bool.false_ne_true)

theorem entryItems_opens (h : Tree.Opens (home ++ [folder]) t t') :
    entryItems home t' = entryItems home t := by
  generalize hway : home ++ [folder] = way at h
  induction h with
  | refl t => rfl
  | folder _ _ hw _ ih =>
    subst hway
    rw [ih, entryItems_put (isEntryPlace_on_way hw)]

/-! ## Clearing -/

/-- The places of the entries that are files. -/
def cleared (home : Place) (t : Tree) : List Place :=
  (entryItems home t).filterMap fun i =>
    match i.node with
    | .file _ => some i.place
    | .folder => none

theorem filterMap_clearedPlace? (home : Place) (t : Tree) :
    (t.under home).filterMap (clearedPlace? home) = cleared home t := by
  rw [cleared, entryItems, Tree.under, List.filterMap_filterMap, List.filterMap_filter]
  congr 1
  funext i
  rw [isEntryPlace]
  cases hb : Tree.below? home i.place with
  | none => rfl
  | some rest =>
    have hplace := Tree.below?_eq_some_iff.1 hb
    obtain _ | ⟨folder, _ | ⟨name, _ | ⟨other, rest⟩⟩⟩ := rest
    · cases i.node <;> rfl
    · cases i.node <;> rfl
    · rw [hplace]
      cases i.node <;> simp [clearedPlace?]
    · cases i.node <;> rfl

theorem exists_file_of_mem_cleared (h : t.Sound) (hq : q ∈ cleared home t) :
    isEntryPlace home q = true ∧ ∃ b, t.node? q = some (.file b) := by
  obtain ⟨i, hi, hq⟩ := List.mem_filterMap.1 hq
  obtain ⟨hmem, hplace⟩ := List.mem_filter.1 hi
  cases hn : i.node with
  | folder =>
    rw [hn] at hq
    cases hq
  | file b =>
    rw [hn] at hq
    cases hq
    have hlisted : (i.place, Node.file b) ∈ t.under [] :=
      Tree.mem_under_iff.2 ⟨ne_nil_of_isEntryPlace hplace, i, hmem, rfl, hn⟩
    exact ⟨hplace, b, h.tidy.node?_of_mem hlisted⟩

theorem cleared_eq_nil (h : t.Sound) (hn : t.node? home ≠ some .folder) : cleared home t = [] := by
  refine List.eq_nil_iff_forall_not_mem.2 fun q hq => ?_
  obtain ⟨hplace, b, hb⟩ := exists_file_of_mem_cleared h hq
  obtain ⟨folder, name, rfl, -⟩ := isEntryPlace_iff.1 hplace
  exact hn (h.folder_of_append (List.cons_ne_nil _ _) hb)

/-- Clearing removes the entries that are files, if the root can be asked for at all. -/
theorem clear_of_start {s : Place} (h : t.Sound) (hp : root.Plain) (hl : root.Short)
    (hs : t.start root = .ok s) : clear root t =
      ((cleared (t.placeOf root) t).length,
        (cleared (t.placeOf root) t).foldl Tree.without t) := by
  by_cases hroot : t.node? (t.placeOf root) = some .folder
  · rw [clear_of_nodeAt (Tree.nodeAt_of_start h hp hl hs hroot), filterMap_clearedPlace?]
  · have hnone : ∀ p, t.nodeAt root ≠ .ok (p, .folder) := by
      intro p hn
      obtain ⟨hresolve, hfolder⟩ := Tree.nodeAt_eq_ok_iff.1 hn
      exact hroot (Tree.eq_of_resolve hresolve hp ▸ hfolder)
    rw [cleared_eq_nil h hroot, clear]
    split
    · exact absurd ‹_› (hnone _)
    · rfl

theorem clear_of_not (hp : root.Plain) (h : ¬(root.Short ∧ Succeeds (t.start root))) :
    clear root t = (0, t) := by
  rw [clear]
  split
  · rename_i hn
    obtain ⟨s, hs, hfold⟩ := Tree.resolve_eq_ok_iff.1 (Tree.nodeAt_eq_ok_iff.1 hn).1
    exact absurd ⟨Tree.short_of_foldlM_step hfold hp, s, hs⟩ h
  · rfl

theorem sound_foldl_without {places : List Place} (h : t.Sound)
    (hf : ∀ q ∈ places, ∃ b, t.node? q = some (.file b)) :
    (places.foldl Tree.without t).Sound where
  tidy := tidy_foldl_without places h.tidy
  above := by
    have hne : ∀ q ∈ places, q ≠ [] := fun q hq => ne_nil_of_file (hf q hq).choose_spec
    intro q name n hn
    rw [node?_foldl_without hne] at hn ⊢
    split at hn
    · cases hn
    · have hq := h.above q name n hn
      rw [if_neg, hq]
      intro hmem
      obtain ⟨b, hb⟩ := hf q hmem
      cases hb.symm.trans hq

theorem entryItems_foldl_without (places : List Place)
    (h : entryItems home t' = entryItems home t) :
    entryItems home (places.foldl Tree.without t') =
      entryItems home (places.foldl Tree.without t) := by
  induction places generalizing t t' with
  | nil => exact h
  | cons q places ih =>
    refine ih ?_
    rw [entryItems_without, entryItems_without, h]

/-! ## Lookups -/

/-- In a sound tree a lookup depends only on what stands at the place of the entry. -/
theorem getAt_of_sound (h : t.Sound) (hp : path.Plain) (hl : path.Short) :
    getAt t path room = match t.start path with
    | .error .nameTooLong => (.error .nameTooLong, t)
    | .error _ => (.ok none, t)
    | .ok _ =>
      match t.node? (t.placeOf path) with
      | some (.file b) =>
        match answer? room b with
        | none => (.ok none, t.without (t.placeOf path))
        | some r => (r, t)
      | _ => (.ok none, t) := by
  rw [getAt_eq]
  cases hs : t.start path with
  | error fault => rw [Tree.nodeAt_of_start_error hs]; cases fault <;> rfl
  | ok s =>
    simp only
    cases hn : t.node? (t.placeOf path) with
    | none =>
      obtain ⟨fault, hfault, hne⟩ := Tree.nodeAt_of_start_none hp hl hs hn
      rw [hfault]
      cases fault with
      | nameTooLong => exact absurd rfl hne
      | _ => rfl
    | some n =>
      rw [Tree.nodeAt_of_start h hp hl hs hn]
      cases n <;> rfl

/-! ## Trees that are alike -/

/-- The same is listed at the places of entries. -/
structure Alike (root : Path) (t t' : Tree) : Prop where
  left : t.Sound
  right : t'.Sound
  here : t'.here = t.here
  entries : entryItems (t.placeOf root) t' = entryItems (t.placeOf root) t

/-- A call that stores nothing, for a key of letters and digits in names that are not too long. -/
def Reading (root : Path) : Call → Prop
  | .get key => IsKey key ∧ (entryPath root key).Short
  | .put .. => False
  | .clear => True

theorem placeOf_entryPath (t : Tree) (root : Path) (h : IsKey key) :
    t.placeOf (entryPath root key) = entryPlace (t.placeOf root) (normalKey key) := by
  rw [entryPath_eq root (isKey_normalKey h), Tree.placeOf_below]
  rfl

theorem plain_entryPath (hp : root.Plain) (h : IsKey key) : (entryPath root key).Plain := by
  have hkey := isKey_normalKey h
  rw [entryPath_eq root hkey]
  simp only [Path.Plain, Path.below, List.mem_append, List.mem_cons, List.not_mem_nil, or_false,
    not_or]
  exact ⟨hp, (isName_folderName hkey).ne_points.symm, (isName_entryName hkey).ne_points.symm⟩

namespace Alike

theorem placeOf (h : Alike root t t') (path : Path) : t'.placeOf path = t.placeOf path := by
  rw [Tree.placeOf, Tree.placeOf, h.here]

theorem start (h : Alike root t t') (path : Path) : t'.start path = t.start path := by
  rw [Tree.start, Tree.start, h.here]

theorem node? (h : Alike root t t') (hq : isEntryPlace (t.placeOf root) q = true) :
    t'.node? q = t.node? q := by
  rw [node?_eq_find?_entryItems hq, node?_eq_find?_entryItems hq, h.entries]

theorem foldl_without (h : Alike root t t') {places : List Place}
    (hf : ∀ q ∈ places, isEntryPlace (t.placeOf root) q = true ∧ ∃ b, t.node? q = some (.file b)) :
    Alike root (places.foldl Tree.without t) (places.foldl Tree.without t') := by
  have hplace : (places.foldl Tree.without t).placeOf root = t.placeOf root := by
    rw [Tree.placeOf, Tree.placeOf, here_foldl_without]
  constructor
  case left => exact sound_foldl_without h.left fun q hq => (hf q hq).2
  case right =>
    refine sound_foldl_without h.right fun q hq => ?_
    rw [h.node? (hf q hq).1]
    exact (hf q hq).2
  case here => rw [here_foldl_without, here_foldl_without, h.here]
  case entries =>
    rw [hplace]
    exact entryItems_foldl_without places h.entries

theorem get (h : Alike root t t') (hp : root.Plain) (hk : IsKey key)
    (hl : (entryPath root key).Short) (room : Option Nat) :
    (get root t' key room).1 = (get root t key room).1 ∧
      Alike root (get root t key room).2 (get root t' key room).2 := by
  have hplain := plain_entryPath hp hk
  have hentry : isEntryPlace (t.placeOf root) (t.placeOf (entryPath root key)) = true := by
    rw [placeOf_entryPath t root hk]
    exact isEntryPlace_entryPlace _ _
  rw [Disk.get, Disk.get, getAt_of_sound h.left hplain hl, getAt_of_sound h.right hplain hl,
    h.start, h.placeOf, h.node? hentry]
  split
  · exact ⟨rfl, h⟩
  · exact ⟨rfl, h⟩
  · split
    · rename_i b hb
      split
      · have hfile : ∀ q ∈ [t.placeOf (entryPath root key)],
            isEntryPlace (t.placeOf root) q = true ∧ ∃ b, t.node? q = some (.file b) :=
          List.forall_mem_singleton.2 ⟨hentry, b, hb⟩
        exact ⟨rfl, h.foldl_without hfile⟩
      · exact ⟨rfl, h⟩
    · exact ⟨rfl, h⟩

theorem clear (h : Alike root t t') (hp : root.Plain) :
    (clear root t').1 = (clear root t).1 ∧ Alike root (clear root t).2 (clear root t').2 := by
  have hcleared : cleared (t.placeOf root) t' = cleared (t.placeOf root) t := by
    rw [cleared, cleared, h.entries]
  by_cases hasked : root.Short ∧ Succeeds (t.start root)
  · obtain ⟨hl, s, hs⟩ := hasked
    have hs' : t'.start root = .ok s := (h.start root).trans hs
    rw [clear_of_start h.left hp hl hs, clear_of_start h.right hp hl hs', h.placeOf, hcleared]
    exact ⟨rfl, h.foldl_without fun q hq => exists_file_of_mem_cleared h.left hq⟩
  · rw [clear_of_not hp hasked, clear_of_not hp ((h.start root).symm ▸ hasked)]
    exact ⟨rfl, h⟩

theorem answer (h : Alike root t t') (hp : root.Plain) {call : Call} (hc : Reading root call) :
    (Disk.answer root room t' call).1 = (Disk.answer root room t call).1 ∧
      Alike root (Disk.answer root room t call).2 (Disk.answer root room t' call).2 := by
  cases call with
  | get key =>
    obtain ⟨hsame, halike⟩ := h.get hp hc.1 hc.2 room
    simp only [Disk.answer, cache, hsame]
    exact ⟨trivial, halike⟩
  | put key a => exact hc.elim
  | clear =>
    obtain ⟨hsame, halike⟩ := h.clear hp
    simp only [Disk.answer, hsame]
    exact ⟨trivial, halike⟩

theorem answers (h : Alike root t t') (hp : root.Plain) (hc : ∀ call ∈ calls, Reading root call) :
    answers (Disk.answer root room) t' calls = answers (Disk.answer root room) t calls := by
  induction calls generalizing t t' with
  | nil => rfl
  | cons call calls ih =>
    rw [List.forall_mem_cons] at hc
    obtain ⟨hsame, halike⟩ := h.answer hp hc.1
    rw [Cache.answers, Cache.answers, hsame, ih halike hc.2]

end Alike

end PETriage.Cache.Disk
