import PETriage.Proofs.Cache.Entry
import PETriage.Proofs.Files.Places

/-!
# How an entry is written

The folder of the entry is made where it is missing, the bytes are written beside the entry's
place and then moved there. Nothing else is changed, and nothing is left beside it.
-/
namespace PETriage

namespace Files.Tree

variable {t t' : Tree} {p q r : Place} {root : Path} {n : Node} {folder name : String}

theorem KeepsFolders.put_file (hq : q ≠ []) (h : t.node? q ≠ some .folder) (b : ByteArray) :
    t.KeepsFolders (t.put q (.file b)) := by
  intro r hr
  rw [node?_put t q r _ hq, if_neg]
  · exact hr
  · rintro rfl
    exact h hr

theorem node?_withFolder (hne : q ≠ []) (hq : t.node? q = none ∨ t.node? q = some .folder) :
    (t.withFolder q).node? r = if r = q then some .folder else t.node? r := by
  rw [withFolder]
  rcases hq with hq | hq
  · rw [hq, Option.isNone_none, if_pos rfl, node?_put t q r _ hne]
  · rw [hq, Option.isNone_some, if_neg Bool.false_ne_true]
    split
    · subst r
      exact hq
    · rfl

theorem here_withFolder (t : Tree) (q : Place) : (t.withFolder q).here = t.here := by
  rw [withFolder]
  split <;> rfl

theorem Tidy.withFolder (ht : t.Tidy p) (hr : r ≠ []) : (t.withFolder (p ++ r)).Tidy p := by
  rw [Tree.withFolder]
  split
  · exact ht.put hr .folder
  · exact ht

/-- A name in a folder below the root that a path leads to. -/
structure Ready (t : Tree) (root : Path) (p : Place) (folder : String) : Prop where
  root : t.resolve root = .ok p
  node : t.node? p = some .folder
  folder : t.node? (p ++ [folder]) = some .folder

theorem Ready.of_keepsFolders (h : t.Ready root p folder) (hhere : t'.here = t.here)
    (hf : t.KeepsFolders t') : t'.Ready root p folder :=
  ⟨resolve_of_folders hhere hf h.root, hf _ h.node, hf _ h.folder⟩

theorem Ready.put_file (h : t.Ready root p folder) (hq : q ≠ []) (hn : t.node? q ≠ some .folder)
    (b : ByteArray) : (t.put q (.file b)).Ready root p folder :=
  h.of_keepsFolders rfl (.put_file hq hn b)

theorem Ready.resolve (h : t.Ready root p folder) (hfolder : IsName folder) (hname : IsName name)
    (hlf : folder.utf8ByteSize ≤ nameLimit) (hln : name.utf8ByteSize ≤ nameLimit)
    (hlp : (root.below [folder, name]).text.utf8ByteSize < pathLimit) :
    t.resolve (root.below [folder, name]) = .ok (p ++ [folder, name]) := by
  have hnames : ∀ s ∈ [folder, name], IsName s :=
    List.forall_mem_cons.2 ⟨hfolder, List.forall_mem_singleton.2 hname⟩
  have hsecond := step_folder h.folder hname hln
  rw [List.append_assoc] at hsecond
  rw [resolve_below h.root hnames hlp]
  exact bind_eq_ok_iff.2 ⟨_, step_folder h.node hfolder hlf, bind_eq_ok_iff.2 ⟨_, hsecond, rfl⟩⟩

/-- A name that is too long for a file stops every path through it. -/
theorem Ready.resolve_overlong (h : t.Ready root p folder) (hfolder : IsName folder)
    (hname : IsName name) (hlf : folder.utf8ByteSize ≤ nameLimit)
    (hln : nameLimit < name.utf8ByteSize) :
    t.resolve (root.below [folder, name]) = .error .nameTooLong := by
  have hnames : ∀ s ∈ [folder, name], IsName s :=
    List.forall_mem_cons.2 ⟨hfolder, List.forall_mem_singleton.2 hname⟩
  by_cases hlp : (root.below [folder, name]).text.utf8ByteSize < pathLimit
  · have hfirst := step_folder h.node hfolder hlf
    have hsecond := step_overlong h.folder hname.ne_points hln
    rw [resolve_below h.root hnames hlp]
    rw [List.foldlM_cons, hfirst]
    show List.foldlM t.step (p ++ [folder]) [name] = _
    rw [List.foldlM_cons, hsecond]
    rfl
  · obtain ⟨s, hs, -⟩ := resolve_eq_ok_iff.1 h.root
    rw [Tree.resolve, start_below hs hnames, if_pos (Nat.not_lt.1 hlp)]
    rfl

theorem setContents_of_resolve {path : Path} (h : t.resolve path = .ok q)
    (hq : t.node? q ≠ some .folder) (b : ByteArray) :
    t.setContents path b = .ok (t.put q (.file b)) := by
  refine bind_eq_ok_iff.2 ⟨q, h, ?_⟩
  split
  · exact absurd ‹_› hq
  · rfl

theorem replaceFile_of_resolve {source target : Path} {b : ByteArray}
    (hs : t.nodeAt source = .ok (p, .file b)) (ht : t.resolve target = .ok q)
    (hq : t.node? q ≠ some .folder) :
    t.replaceFile source target = .ok ((t.without p).put q (.file b)) := by
  refine bind_eq_ok_iff.2 ⟨_, hs, bind_eq_ok_iff.2 ⟨q, ht, ?_⟩⟩
  cases hn : t.node? q with
  | none => rfl
  | some n =>
    cases n with
    | folder => exact absurd hn hq
    | file c => rfl

end Files.Tree

namespace Cache.Disk

open Report (Analysis)
open Files (Path Place Node Tree)

variable {t : Tree} {p r : Place} {root : Path} {key : String} {a : Analysis} {b : ByteArray}

def folderPlace (p : Place) (key : String) : Place := p ++ [folderName key]
def entryPlace (p : Place) (key : String) : Place := p ++ [folderName key, entryName key]
def temporaryPlace (p : Place) (key : String) : Place :=
  p ++ [folderName key, key ++ temporarySuffix]

theorem folderPlace_ne_nil (p : Place) (key : String) : folderPlace p key ≠ [] := by
  simp [folderPlace]

theorem entryPlace_ne_nil (p : Place) (key : String) : entryPlace p key ≠ [] := by
  simp [entryPlace]

theorem temporaryPlace_ne_nil (p : Place) (key : String) : temporaryPlace p key ≠ [] := by
  simp [temporaryPlace]

theorem temporaryPlace_ne_entryPlace (p : Place) (key other : String) :
    temporaryPlace p key ≠ entryPlace p other := by
  intro h
  have hnames := List.append_cancel_left h
  exact temporary_ne_entryName key other (List.cons.inj (List.cons.inj hnames).2).1

theorem entryPlace_injective {other : String} (h : entryPlace p key = entryPlace p other) :
    key = other := by
  have hnames := List.append_cancel_left h
  exact entryName_injective (List.cons.inj (List.cons.inj hnames).2).1

theorem folderPlace_ne_entryPlace (p : Place) (key other : String) :
    folderPlace p key ≠ entryPlace p other := by
  intro h
  exact absurd (List.cons.inj (List.append_cancel_left h)).2.symm (List.cons_ne_nil _ _)

theorem folderPlace_ne_temporaryPlace (p : Place) (key other : String) :
    folderPlace p key ≠ temporaryPlace p other := by
  intro h
  exact absurd (List.cons.inj (List.append_cancel_left h)).2.symm (List.cons_ne_nil _ _)

/-- The tree after an entry was written. -/
def written (t : Tree) (p : Place) (key : String) (b : ByteArray) : Tree :=
  let temporary := temporaryPlace p key
  let opened := t.withFolder (folderPlace p key)
  let beside := (opened.put temporary (.file .empty)).put temporary (.file b)
  (beside.without temporary).put (entryPlace p key) (.file b)

theorem here_written (t : Tree) (p : Place) (key : String) (b : ByteArray) :
    (written t p key b).here = t.here := Tree.here_withFolder t _

theorem tidy_written (h : t.Tidy p) : (written t p key b).Tidy p := by
  have hfolder := h.withFolder (r := [folderName key]) (List.cons_ne_nil _ _)
  have hbeside := (hfolder.put (r := [folderName key, key ++ temporarySuffix])
    (List.cons_ne_nil _ _) (.file .empty)).put (r := [folderName key, key ++ temporarySuffix])
    (List.cons_ne_nil _ _) (.file b)
  exact (hbeside.without _).put (List.cons_ne_nil _ _) _

theorem node?_written
    (hfolder : t.node? (folderPlace p key) = none ∨ t.node? (folderPlace p key) = some .folder)
    (htemporary : t.node? (temporaryPlace p key) = none) (r : Place) :
    (written t p key b).node? r =
      if r = entryPlace p key then some (.file b)
      else if r = folderPlace p key then some .folder else t.node? r := by
  have hne := temporaryPlace_ne_nil p key
  simp only [written]
  rw [Tree.node?_put _ _ r _ (entryPlace_ne_nil p key), Tree.node?_without _ _ r hne,
    Tree.node?_put _ _ r _ hne, Tree.node?_put _ _ r _ hne,
    Tree.node?_withFolder (folderPlace_ne_nil p key) hfolder]
  by_cases hr : r = temporaryPlace p key
  · subst hr
    rw [if_neg (temporaryPlace_ne_entryPlace p key key), if_pos rfl,
      if_neg (temporaryPlace_ne_entryPlace p key key),
      if_neg (folderPlace_ne_temporaryPlace p key key).symm, htemporary]
  · simp only [if_neg hr]

/-- In a folder that is there the file is first made empty, then it is given its bytes, and then
it is moved to the entry's place. -/
theorem moved_of_ready {u : Tree} (h : u.Ready root p (folderName key)) (hfits : Fits root key)
    (htemporary : u.node? (temporaryPlace p key) = none)
    (hentry : u.node? (entryPlace p key) ≠ some .folder) (b : ByteArray) :
    let temporary := root.below [folderName key, key ++ temporarySuffix]
    let beside (b : ByteArray) (u : Tree) : Tree := u.put (temporaryPlace p key) (.file b)
    u.setContents temporary .empty = .ok (beside .empty u) ∧
    (beside .empty u).setContents temporary b = .ok (beside b (beside .empty u)) ∧
    (beside b (beside .empty u)).replaceFile temporary
        (root.below [folderName key, entryName key]) =
      .ok (((beside b (beside .empty u)).without (temporaryPlace p key)).put (entryPlace p key)
        (.file b)) := by
  intro temporary beside
  have hne := temporaryPlace_ne_nil p key
  have hbeside (b : ByteArray) (u : Tree) :
      (beside b u).node? (temporaryPlace p key) = some (.file b) :=
    (Tree.node?_put u _ _ _ hne).trans (if_pos rfl)
  have hother (b : ByteArray) (u : Tree) :
      (beside b u).node? (entryPlace p key) = u.node? (entryPlace p key) :=
    (Tree.node?_put u _ _ _ hne).trans (if_neg (temporaryPlace_ne_entryPlace p key key).symm)
  have htarget : u.node? (temporaryPlace p key) ≠ some .folder := by
    rw [htemporary]
    nofun
  have hmade : (beside .empty u).node? (temporaryPlace p key) ≠ some .folder := by
    rw [hbeside]
    nofun
  have hresolve {u : Tree} (h : u.Ready root p (folderName key)) :
      u.resolve temporary = .ok (temporaryPlace p key) :=
    h.resolve (isName_folderName hfits.letters) (isName_temporary hfits.letters) hfits.folder
      hfits.temporary hfits.temporaryPath
  have hready := h.put_file hne htarget .empty
  have hready' := hready.put_file hne hmade b
  refine ⟨Tree.setContents_of_resolve (hresolve h) htarget .empty,
    Tree.setContents_of_resolve (hresolve hready) hmade b, ?_⟩
  apply Tree.replaceFile_of_resolve
  · exact Tree.nodeAt_eq_ok_iff.2 ⟨hresolve hready', hbeside b _⟩
  · exact hready'.resolve (isName_folderName hfits.letters) (isName_entryName hfits.letters)
      hfits.folder hfits.entry hfits.entryPath
  · rw [hother, hother]
    exact hentry

theorem putAt_below (hroot : t.resolve root = .ok p) (hp : t.node? p = some .folder)
    (hfits : Fits root key)
    (hfolder : t.node? (folderPlace p key) = none ∨ t.node? (folderPlace p key) = some .folder)
    (htemporary : t.node? (temporaryPlace p key) = none)
    (hentry : t.node? (entryPlace p key) ≠ some .folder) (hb : entryBytes a = .ok b) :
    putAt t (root.below [folderName key, entryName key]) a = (.ok (), written t p key b) := by
  have hensure : t.ensureFolders (root.below [folderName key]) =
      (.ok (), t.withFolder (folderPlace p key)) :=
    Tree.ensureFolders_below hroot hp (isName_folderName hfits.letters) hfits.folder hfolder
      hfits.folderPath
  have hnode (r : Place) : (t.withFolder (folderPlace p key)).node? r =
      if r = folderPlace p key then some .folder else t.node? r :=
    Tree.node?_withFolder (folderPlace_ne_nil p key) hfolder
  have hopened : t.KeepsFolders (t.withFolder (folderPlace p key)) := by
    intro r hr
    rw [hnode, hr, ite_self]
  have hready : (t.withFolder (folderPlace p key)).Ready root p (folderName key) :=
    ⟨Tree.resolve_of_folders (Tree.here_withFolder t _) hopened hroot, hopened p hp,
      (hnode _).trans (if_pos rfl)⟩
  have hbeside := (hnode _).trans (if_neg (folderPlace_ne_temporaryPlace p key key).symm)
  have hother := (hnode _).trans (if_neg (folderPlace_ne_entryPlace p key key).symm)
  obtain ⟨hempty, hfull, hmoved⟩ :=
    moved_of_ready hready hfits (hbeside.trans htemporary) (hother ▸ hentry) b
  rw [putAt, parent_below, temporaryPath_below, hensure]
  simp only [hempty, hb, hfull, hmoved]
  rfl

end Cache.Disk
end PETriage
