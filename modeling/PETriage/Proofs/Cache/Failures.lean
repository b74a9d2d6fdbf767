import PETriage.Proofs.Cache.Alike
import PETriage.Proofs.Cache.Layout
import PETriage.Proofs.Files.Leading

/-!
# Puts that fail

A put makes the folder of the entry, writes a file beside the entry's place and moves it there. It
can stop after any of these steps. Whatever it leaves behind, lookups and clearing do not see; but
the file beside the place stays when a folder stands where it should be moved to.
-/
namespace PETriage

namespace Files.Tree

variable {t u : Tree} {p q s : Place} {root path : Path} {folder name other : String}

theorem eq_of_setContents {b : ByteArray} (h : t.setContents path b = .ok u) :
    ∃ q, t.resolve path = .ok q ∧ t.node? q ≠ some .folder ∧ u = t.put q (.file b) := by
  obtain ⟨q, hq, h⟩ := bind_eq_ok_iff.1 h
  refine ⟨q, hq, ?_⟩
  split at h
  · cases h
  · rename_i hn
    cases h
    exact ⟨hn, rfl⟩

theorem start_sibling (h : t.start (root.below [folder, name]) = .ok s) (ho : IsName other)
    (hl : other.utf8ByteSize ≤ name.utf8ByteSize) :
    t.start (root.below [folder, other]) = .ok s := by
  have hsize := Path.utf8ByteSize_text_below root folder
  have hname := hsize [name]
  have hother := hsize [other]
  simp only [List.map_cons, List.map_nil, List.sum_cons, List.sum_nil] at hname hother
  have hplain : other.toList.contains (Char.ofNat 0) = false := by
    refine Bool.eq_false_iff.2 fun hc => ?_
    exact (ho.plain _ (by simpa using hc)).2 rfl
  rw [start] at h ⊢
  split at h
  · cases h
  · rename_i hzero
    split at h
    · cases h
    · rename_i hlong
      rw [if_neg, if_neg]
      · exact h
      · omega
      · simp only [Path.below, List.any_append, List.any_cons, List.any_nil, Bool.or_eq_true,
          not_or] at hzero ⊢
        simp only [hplain]
        exact ⟨hzero.1, hzero.2.1, Bool.false_ne_true, Bool.false_ne_true⟩

/-- Where one name leads, a name that is no longer leads beside it. -/
theorem resolve_sibling (h : t.resolve (root.below [folder, name]) = .ok q) (ho : IsName other)
    (hl : other.utf8ByteSize ≤ name.utf8ByteSize) (hn : name ≠ "..") :
    t.resolve (root.below [folder, other]) = .ok (q.dropLast ++ [other]) ∧
      t.node? q.dropLast = some .folder := by
  obtain ⟨s, hs, hfold⟩ := resolve_eq_ok_iff.1 h
  have hparts (last : String) : (root.below [folder, last]).parts =
      (root.parts ++ [folder]) ++ [last] := by simp [Path.below]
  rw [hparts, List.foldlM_append] at hfold
  obtain ⟨p, hp, hlast⟩ := bind_eq_ok_iff.1 hfold
  obtain ⟨q', hstep, hq⟩ := bind_eq_ok_iff.1 hlast
  cases hq
  obtain rfl := eq_of_step hstep hn
  have hfolder := node?_of_step hstep
  have hother := step_folder hfolder ho (Nat.le_trans hl (short_of_step hstep hn))
  rw [List.dropLast_concat]
  refine ⟨resolve_eq_ok_iff.2 ⟨s, start_sibling hs ho hl, ?_⟩, hfolder⟩
  rw [hparts, List.foldlM_append]
  exact bind_eq_ok_iff.2 ⟨p, hp, bind_eq_ok_iff.2 ⟨_, hother, rfl⟩⟩

theorem replaceFile_of_folder {source target : Path} {b : ByteArray}
    (hs : t.nodeAt source = .ok (p, .file b)) (ht : t.resolve target = .ok q)
    (hq : t.node? q = some .folder) : t.replaceFile source target = .error .isFolder := by
  simp only [replaceFile, hs, ht, hq, bind, Except.bind]
  rfl

end Files.Tree

namespace Cache.Disk

open Report (Analysis)
open Files (Path Place Node Tree)

variable {t t₁ t' : Tree} {root : Path} {home q r : Place} {key : String} {a : Analysis}
  {room : Option Nat}
  {b : ByteArray} {calls : List Call}

/-! ## What a put does -/

/-- The file beside the entry's place, first empty and then with the bytes of the entry. -/
def beside (home : Place) (key : String) (b : ByteArray) (t : Tree) : Tree :=
  (t.put (temporaryPlace home key) (.file .empty)).put (temporaryPlace home key) (.file b)

/-- What can become of a put once it has made its folders: it cannot open the file beside the
entry's place, it cannot write the analysis, it cannot move the file, or it has moved it. -/
inductive Put (entry : Path) (home : Place) (key : String) (a : Analysis) (t : Tree) :
    Except PutFault Unit → Tree → Prop
  | unopened (fault : PutFault) : Put entry home key a t (.error fault) t
  | unwritten (hb : ¬Succeeds (entryBytes a))
    (hf : t.node? (folderPlace home key) = some .folder)
    (hq : t.node? (temporaryPlace home key) ≠ some .folder) :
    Put entry home key a t (.error .tooManyDigits)
      (t.put (temporaryPlace home key) (.file .empty))
  | unmoved {b : ByteArray} (hb : entryBytes a = .ok b)
    (hf : t.node? (folderPlace home key) = some .folder)
    (hq : t.node? (temporaryPlace home key) ≠ some .folder)
    (he : t.node? (entryPlace home key) = some .folder) :
    Put entry home key a t (.error (.files entry .isFolder)) (beside home key b t)
  | moved {b : ByteArray} (hb : entryBytes a = .ok b)
    (hf : t.node? (folderPlace home key) = some .folder)
    (hq : t.node? (temporaryPlace home key) ≠ some .folder)
    (he : t.node? (entryPlace home key) ≠ some .folder) :
    Put entry home key a t (.ok ())
      (((beside home key b t).without (temporaryPlace home key)).put (entryPlace home key)
        (.file b))

theorem node?_beside (home : Place) (key : String) (b : ByteArray) (t : Tree) (r : Place) :
    (beside home key b t).node? r =
      if r = temporaryPlace home key then some (.file b) else t.node? r := by
  have hne := temporaryPlace_ne_nil home key
  rw [beside, Tree.node?_put _ _ r _ hne, Tree.node?_put _ _ r _ hne]
  split <;> rfl

theorem temporaryPlace_eq (home : Place) (key : String) :
    temporaryPlace home key = folderPlace home key ++ [key ++ temporarySuffix] := by
  simp [temporaryPlace, folderPlace]

theorem entryPlace_eq (home : Place) (key : String) :
    entryPlace home key = folderPlace home key ++ [entryName key] := by
  simp [entryPlace, folderPlace]

/-- Where the paths of a put lead once the file beside the entry's place is open. -/
theorem resolve_of_opened {u : Tree} (hkey : Tame key)
    (h : t.setContents (root.below [folderName key, key ++ temporarySuffix]) b = .ok u) :
    let home := root.leads t.here
    t.resolve (root.below [folderName key, key ++ temporarySuffix]) =
      .ok (temporaryPlace home key) ∧
    t.resolve (root.below [folderName key, entryName key]) = .ok (entryPlace home key) ∧
    t.node? (folderPlace home key) = some .folder ∧
    t.node? (temporaryPlace home key) ≠ some .folder ∧
    u = t.put (temporaryPlace home key) (.file b) := by
  intro home
  have htemporary := isStep_temporary hkey.slashless
  have hplain : ".." ∉ [folderName key, key ++ temporarySuffix] := by
    simp only [List.mem_cons, List.not_mem_nil, or_false, not_or]
    exact ⟨hkey.isStep_folderName.ne_points.symm, htemporary.ne_points.symm⟩
  obtain ⟨q, hresolve, hn, rfl⟩ := Tree.eq_of_setContents h
  obtain rfl : q = temporaryPlace home key := by
    rw [Tree.eq_leads_of_resolve hresolve, Path.leads_below, Path.foldl_turn_of_plain hplain]
    rfl
  -- The name of the entry can be followed too, for the one beside it is longer and was followed.
  have hname : Files.IsName (entryName key) := by
    have hentry := isStep_entryName hkey.slashless
    obtain ⟨s, hs, -⟩ := Tree.resolve_eq_ok_iff.1 hresolve
    have hzero := Tree.ne_zero_of_start hs (key ++ temporarySuffix) (by simp [Path.below])
    refine ⟨fun c hc => ⟨hentry.slashless c hc, ?_⟩, hentry.ne_empty, hentry.ne_point,
      hentry.ne_points⟩
    rw [entryName, String.toList_append] at hc
    rcases List.mem_append.1 hc with hc | hc
    · exact hzero c (by rw [String.toList_append]; exact List.mem_append_left _ hc)
    · exact List.forall_mem_ne'.2 (by decide : Char.ofNat 0 ∉ entrySuffix.toList) c hc
  have hlength : (entryName key).utf8ByteSize ≤ (key ++ temporarySuffix).utf8ByteSize := by
    rw [entryName, String.utf8ByteSize_append, String.utf8ByteSize_append]
    exact Nat.add_le_add_left (by decide) _
  obtain ⟨hentry, hfolder⟩ := Tree.resolve_sibling hresolve hname hlength htemporary.ne_points
  rw [temporaryPlace_eq, List.dropLast_concat] at hentry hfolder
  rw [← entryPlace_eq] at hentry
  exact ⟨hresolve, hentry, hfolder, hn, rfl⟩

/-- Once the file beside the entry's place is open, only a folder in that place is in the way. -/
theorem moves_of_opened {u : Tree} (hkey : Tame key)
    (h : t.setContents (root.below [folderName key, key ++ temporarySuffix]) .empty = .ok u)
    (b : ByteArray) :
    let home := root.leads t.here
    let temporary := root.below [folderName key, key ++ temporarySuffix]
    let entry := root.below [folderName key, entryName key]
    u.setContents temporary b = .ok (beside home key b t) ∧
    (t.node? (entryPlace home key) = some .folder →
      (beside home key b t).replaceFile temporary entry = .error .isFolder) ∧
    (t.node? (entryPlace home key) ≠ some .folder →
      (beside home key b t).replaceFile temporary entry =
        .ok (((beside home key b t).without (temporaryPlace home key)).put
          (entryPlace home key) (.file b))) := by
  intro home temporary entry
  obtain ⟨hresolve, hentry, -, hn, rfl⟩ := resolve_of_opened hkey h
  have hne := temporaryPlace_ne_nil home key
  have hopened : t.KeepsFolders (t.put (temporaryPlace home key) (.file .empty)) :=
    .put_file hne hn .empty
  have hnot : (t.put (temporaryPlace home key) (.file .empty)).node? (temporaryPlace home key) ≠
      some .folder := Tree.ne_folder_of_file ((Tree.node?_put t _ _ _ hne).trans (if_pos rfl))
  have hkeeps : t.KeepsFolders (beside home key b t) := fun r hr =>
    Tree.KeepsFolders.put_file hne hnot b r (hopened r hr)
  have hhere : (beside home key b t).here = t.here := rfl
  have hnode := node?_beside home key b t
  have hsource : (beside home key b t).nodeAt temporary = .ok (temporaryPlace home key, .file b) :=
    Tree.nodeAt_eq_ok_iff.2
      ⟨Tree.resolve_of_folders hhere hkeeps hresolve, (hnode _).trans (if_pos rfl)⟩
  have htarget := Tree.resolve_of_folders hhere hkeeps hentry
  have hother := (hnode (entryPlace home key)).trans
    (if_neg (temporaryPlace_ne_entryPlace home key key).symm)
  refine ⟨?_, fun he => ?_, fun he => ?_⟩
  · have hagain : (t.put (temporaryPlace home key) (.file .empty)).resolve temporary =
        .ok (temporaryPlace home key) := Tree.resolve_of_folders (t := t) rfl hopened hresolve
    exact Tree.setContents_of_resolve hagain hnot b
  · exact Tree.replaceFile_of_folder hsource htarget (hother.trans he)
  · exact Tree.replaceFile_of_resolve hsource htarget (hother ▸ he)

/-- A put first makes the folder of the entry, and goes on only if that is there. -/
theorem put_of_tame (root : Path) (t : Tree) (hk : Tame (normalKey key)) (a : Analysis) :
    let opened := t.ensureFolders (root.below [folderName (normalKey key)])
    Put (entryPath root key) (root.leads t.here) (normalKey key) a opened.2 (put root t key a).1
        (put root t key a).2 ∧
      ((put root t key a).1 = .ok () → opened.1 = .ok ()) := by
  rw [put, entryPath_of_tame root hk]
  generalize normalKey key = k at hk
  rw [putAt, parent_below, temporaryPath_below]
  -- The folders never move the root, so the steps that follow are about the same places.
  have hhere := (Tree.ensureFolders_grown t (root.below [folderName k])).here
  rw [← hhere]
  generalize t.ensureFolders (root.below [folderName k]) = opened
  obtain ⟨result, t₁⟩ := opened
  cases result with
  | error fault =>
    refine ⟨.unopened _, fun h => ?_⟩
    cases h
  | ok _ =>
    refine ⟨?_, fun _ => rfl⟩
    simp only
    cases hset : t₁.setContents (root.below [folderName k, k ++ temporarySuffix]) .empty with
    | error fault => exact .unopened _
    | ok u =>
      -- From here on the file beside the place is open, and every failure leaves it there.
      obtain ⟨-, -, hf, hq, rfl⟩ := resolve_of_opened hk hset
      cases hb : entryBytes a with
      | error e => exact .unwritten (hb ▸ not_succeeds_error e) hf hq
      | ok b =>
        obtain ⟨hwritten, hstays, hmoved⟩ := moves_of_opened hk hset b
        by_cases he : t₁.node? (entryPlace (root.leads t₁.here) k) = some .folder
        · simp only [hwritten, hstays he]
          exact .unmoved hb hf hq he
        · simp only [hwritten, hmoved he]
          exact .moved hb hf hq he

theorem put_cases (t : Tree) (hp : root.Plain) (hk : IsKey key) (a : Analysis) :
    ∃ t₁, Tree.Opens (folderPlace (t.placeOf root) (normalKey key)) t t₁ ∧
      Put (entryPath root key) (t.placeOf root) (normalKey key) a t₁ (put root t key a).1
        (put root t key a).2 := by
  have hkey := isKey_normalKey hk
  have hparent : (root.below [folderName (normalKey key)]).Plain := by
    simp only [Path.Plain, Path.below, List.mem_append, List.mem_singleton, not_or]
    exact ⟨hp, (isName_folderName hkey).ne_points.symm⟩
  have hopens : Tree.Opens (folderPlace (t.placeOf root) (normalKey key)) t
      (t.ensureFolders (root.below [folderName (normalKey key)])).2 := by
    rw [folderPlace, ← Tree.placeOf_below]
    exact Tree.ensureFolders_opens hparent
  obtain ⟨hput, -⟩ := put_of_tame root t hkey.tame a
  rw [Tree.leads_of_plain hp] at hput
  exact ⟨_, hopens, hput⟩

theorem sound_put_temporary (ht : t.Sound) (hf : t.node? (folderPlace home key) = some .folder)
    (hq : t.node? (temporaryPlace home key) ≠ some .folder) (b : ByteArray) :
    let u := t.put (temporaryPlace home key) (.file b)
    u.Sound ∧ u.node? (folderPlace home key) = some .folder ∧
      u.node? (temporaryPlace home key) ≠ some .folder := by
  have hne := temporaryPlace_ne_nil home key
  refine ⟨?_, ?_, ?_⟩
  · rw [temporaryPlace_eq] at hq ⊢
    exact ht.put hf (.inl hq)
  · rw [Tree.node?_put t _ _ _ hne, if_neg (folderPlace_ne_temporaryPlace home key key), hf]
  · exact Tree.ne_folder_of_file ((Tree.node?_put t _ _ _ hne).trans (if_pos rfl))

theorem sound_beside (ht : t.Sound) (hf : t.node? (folderPlace home key) = some .folder)
    (hq : t.node? (temporaryPlace home key) ≠ some .folder) (b : ByteArray) :
    (beside home key b t).Sound := by
  obtain ⟨ht, hf, hq⟩ := sound_put_temporary ht hf hq .empty
  exact (sound_put_temporary ht hf hq b).1

namespace Put

variable {entry : Path} {result : Except PutFault Unit}

theorem here (h : Put entry home key a t result t') : t'.here = t.here := by
  cases h <;> rfl

theorem sound (h : Put entry home key a t result t') (ht : t.Sound) : t'.Sound := by
  cases h with
  | unopened fault => exact ht
  | unwritten hb hf hq => exact (sound_put_temporary ht hf hq .empty).1
  | @unmoved b hb hf hq he => exact sound_beside ht hf hq b
  | @moved b hb hf hq he =>
    have hne := temporaryPlace_ne_nil home key
    have hfile : (beside home key b t).node? (temporaryPlace home key) = some (.file b) := by
      rw [node?_beside, if_pos rfl]
    have hother (q : Place) (hq : q ≠ temporaryPlace home key) :
        ((beside home key b t).without (temporaryPlace home key)).node? q = t.node? q := by
      rw [Tree.node?_without _ _ _ hne, if_neg hq, node?_beside, if_neg hq]
    have hentry := hother _ (temporaryPlace_ne_entryPlace home key key).symm
    have hfolder := hother _ (folderPlace_ne_temporaryPlace home key key)
    rw [entryPlace_eq] at he hentry ⊢
    exact ((sound_beside ht hf hq b).without hfile).put (hfolder.trans hf) (.inl (hentry ▸ he))

theorem entryItems_of_error {fault : PutFault} (h : Put entry home key a t (.error fault) t') :
    entryItems home t' = entryItems home t := by
  have hq := isEntryPlace_temporaryPlace home key
  cases h with
  | unopened => rfl
  | unwritten => exact entryItems_put hq t _
  | unmoved => rw [beside, entryItems_put hq, entryItems_put hq]

/-- Only the file beside the entry's place is left behind, and only if the entry cannot be moved to
its place or has no text. -/
theorem node?_of_error {fault : PutFault} (h : Put entry home key a t (.error fault) t')
    (q : Place) :
    t'.node? q = t.node? q ∨ (q = temporaryPlace home key ∧ (∃ b, t'.node? q = some (.file b)) ∧
      ((fault = .files entry .isFolder ∧ t.node? (entryPlace home key) = some .folder ∧
          ∃ b, entryBytes a = .ok b ∧ t'.node? q = some (.file b)) ∨
        (fault = .tooManyDigits ∧ ¬Succeeds (entryBytes a)))) := by
  have hne := temporaryPlace_ne_nil home key
  cases h with
  | unopened => exact .inl rfl
  | unwritten hb hf hq =>
    rw [Tree.node?_put t _ q _ hne]
    split
    · exact .inr ⟨‹_›, ⟨_, rfl⟩, .inr ⟨rfl, hb⟩⟩
    · exact .inl rfl
  | @unmoved b hb hf hq he =>
    rw [node?_beside]
    split
    · exact .inr ⟨‹_›, ⟨_, rfl⟩, .inl ⟨rfl, he, b, hb, rfl⟩⟩
    · exact .inl rfl

/-- A put that succeeds leaves a complete entry and nothing beside it. -/
theorem node?_of_ok (h : Put entry home key a t (.ok ()) t') :
    ∃ b, entryBytes a = .ok b ∧ ∀ q, t'.node? q =
      if q = entryPlace home key then some (.file b)
      else if q = temporaryPlace home key then none else t.node? q := by
  cases h with
  | @moved b hb hf hq he =>
    refine ⟨b, hb, fun q => ?_⟩
    rw [Tree.node?_put _ _ q _ (entryPlace_ne_nil _ _),
      Tree.node?_without _ _ q (temporaryPlace_ne_nil _ _), node?_beside]
    split
    · rfl
    · split <;> rfl

end Put

/-! ## One put that fails -/

theorem length_folderPlace (home : Place) (key : String) :
    (folderPlace home key).length = home.length + 1 := by simp [folderPlace]

theorem not_prefix_folderPlace (home : Place) (key folder name : String) :
    ¬home ++ [folder, name] <+: folderPlace home key := by
  intro h
  have hlength := h.length_le
  rw [length_folderPlace, List.length_append] at hlength
  simp at hlength

variable {fault : PutFault}

theorem alike_of_failed (ht : t.Sound) (hp : root.Plain) (hk : IsKey key)
    (h : put root t key a = (.error fault, t')) : Alike root t t' := by
  obtain ⟨t₁, hopens, hput⟩ := put_cases t hp hk a
  rw [h] at hput
  refine ⟨ht, hput.sound (hopens.sound ht), hput.here.trans hopens.here, ?_⟩
  rw [hput.entryItems_of_error, entryItems_opens hopens]

/-- The place holds a file in the one tree exactly if it holds it in the other. -/
def SameFile (t t' : Tree) (q : Place) : Prop :=
  ∀ b, t'.node? q = some (.file b) ↔ t.node? q = some (.file b)

/-- Why a put that fails leaves its file beside the entry's place: a folder stands in that place, or
the analysis has a number that is too long for a text. -/
inductive LeftBeside (root : Path) (t : Tree) (key : String) (a : Analysis) (t' : Tree) :
    PutFault → Prop
  | folder {b : ByteArray}
    (he : t.node? (entryPlace (t.placeOf root) (normalKey key)) = some .folder)
    (hb : entryBytes a = .ok b)
    (hq : t'.node? (temporaryPlace (t.placeOf root) (normalKey key)) = some (.file b)) :
    LeftBeside root t key a t' (.files (entryPath root key) .isFolder)
  | textless (hb : ¬Succeeds (entryBytes a)) : LeftBeside root t key a t' .tooManyDigits

theorem files_of_failed (hp : root.Plain) (hk : IsKey key)
    (h : put root t key a = (.error fault, t')) (q : Place) : SameFile t t' q ∨
      (q = temporaryPlace (t.placeOf root) (normalKey key) ∧ LeftBeside root t key a t' fault) := by
  obtain ⟨t₁, hopens, hput⟩ := put_cases t hp hk a
  rw [h] at hput
  have hentry : t₁.node? (entryPlace (t.placeOf root) (normalKey key)) =
      t.node? (entryPlace (t.placeOf root) (normalKey key)) :=
    hopens.node?_off_way (not_prefix_folderPlace _ _ _ _)
  rcases hput.node?_of_error q with hsame | ⟨rfl, -, ⟨rfl, he, b, hb, hq⟩ | ⟨rfl, hb⟩⟩
  · refine .inl fun b => ?_
    rw [hsame]
    exact hopens.file_iff q b
  · exact .inr ⟨rfl, .folder (hentry ▸ he) hb hq⟩
  · exact .inr ⟨rfl, .textless hb⟩

/-- A folder in the place of an entry keeps a put from ending, and the file beside it stays. -/
theorem put_onto_folder (ht : t.Sound) (hp : root.Plain) (hu : Usable root key)
    (hroot : t.nodeAt root = .ok (home, .folder))
    (he : t.node? (entryPlace home (normalKey key)) = some .folder)
    (hq : t.node? (temporaryPlace home (normalKey key)) ≠ some .folder)
    (hb : entryBytes a = .ok b) : put root t key a =
      (.error (.files (entryPath root key) .isFolder), beside home (normalKey key) b t) := by
  have hfits := hu.fits
  have hkey := isKey_normalKey hu.letters
  rw [put, entryPath_eq root hkey]
  generalize normalKey key = k at he hq hfits hkey
  obtain ⟨hresolve, hnode⟩ := Tree.nodeAt_eq_ok_iff.1 hroot
  obtain rfl := Tree.eq_of_resolve hresolve hp
  have hfolder : t.node? (folderPlace (t.placeOf root) k) = some .folder := by
    rw [entryPlace_eq] at he
    exact ht.folder_of_append (List.cons_ne_nil _ _) he
  have hensure : t.ensureFolders (root.below [folderName k]) = (.ok (), t) := by
    have h := Tree.ensureFolders_below hresolve hnode (isName_folderName hkey) hfits.folder
      (.inr hfolder) hfits.folderPath
    rw [h, Tree.withFolder, if_neg]
    show ¬(t.node? (folderPlace _ k)).isNone = true
    rw [hfolder]
    exact Bool.false_ne_true
  have hready : t.Ready root (t.placeOf root) (folderName k) := ⟨hresolve, hnode, hfolder⟩
  have hset := Tree.setContents_of_resolve (hready.resolve (isName_folderName hkey)
    (isName_temporary hkey) hfits.folder hfits.temporary hfits.temporaryPath) hq .empty
  obtain ⟨hwritten, hstays, -⟩ := moves_of_opened hkey.tame hset b
  rw [Tree.leads_of_plain hp] at hwritten hstays
  rw [putAt, parent_below, temporaryPath_below, hensure]
  simp only [hset, hb, hwritten, hstays he]
  rfl

/-! ## Names that are too long -/

/-- The name of a folder is short, whatever the key. -/
theorem short_folderName (key : String) : (folderName key).utf8ByteSize ≤ Tree.nameLimit := by
  have hsize (c : Char) := c.utf8Size_le_four
  rw [folderName, Tree.nameLimit]
  rcases key.toList with - | ⟨c, - | ⟨d, cs⟩⟩
  · decide
  · have hc := hsize c
    simp only [List.take_succ_cons, List.take_nil, String.ofList_cons, String.ofList_nil,
      String.append_empty, String.utf8ByteSize_singleton]
    omega
  · have hc := hsize c
    have hd := hsize d
    simp only [List.take_succ_cons, List.take_zero, String.ofList_cons, String.ofList_nil,
      String.append_empty, String.append_singleton, String.utf8ByteSize_push,
      String.utf8ByteSize_singleton]
    omega

/-- A key of letters and digits that is too long for the name of a file, though not for a path. -/
structure Overlong (root : Path) (key : String) : Prop where
  letters : IsKey key
  name : Tree.nameLimit < (entryPath root key).name.utf8ByteSize
  path : (entryPath root key).text.utf8ByteSize < Tree.pathLimit

theorem Overlong.entryName (h : Overlong root key) :
    Tree.nameLimit < (Disk.entryName (normalKey key)).utf8ByteSize := by
  have hname := h.name
  rw [entryPath_eq root (isKey_normalKey h.letters)] at hname
  simpa [Path.name, Path.below] using hname

theorem Overlong.temporary (h : Overlong root key) :
    Tree.nameLimit < (normalKey key ++ temporarySuffix).utf8ByteSize := by
  have hentry := h.entryName
  rw [Disk.entryName, String.utf8ByteSize_append] at hentry
  rw [String.utf8ByteSize_append]
  exact Nat.lt_trans hentry (Nat.add_lt_add_left (by decide) _)

/-- While the folder is not there, a lookup does not come to the name that is too long. -/
theorem get_of_no_folder (hk : IsKey key) (hr : t.nodeAt root = .ok (home, .folder))
    (hpath : (entryPath root key).text.utf8ByteSize < Tree.pathLimit)
    (hfree : t.node? (folderPlace home (normalKey key)) = none) (room : Option Nat) :
    get root t key room = (.ok none, t) := by
  have hkey := isKey_normalKey hk
  obtain ⟨hresolve, hnode⟩ := Tree.nodeAt_eq_ok_iff.1 hr
  rw [get, getAt_eq]
  rw [entryPath_eq root hkey] at hpath ⊢
  have hnames : ∀ s ∈ [folderName (normalKey key), entryName (normalKey key)], Files.IsName s :=
    List.forall_mem_cons.2 ⟨isName_folderName hkey,
      List.forall_mem_singleton.2 (isName_entryName hkey)⟩
  have hfirst := Tree.step_folder hnode (isName_folderName hkey) (short_folderName _)
  have hmissing : t.resolve (root.below [folderName (normalKey key), entryName (normalKey key)]) =
      .error .missing := by
    rw [Tree.resolve_below hresolve hnames hpath, List.foldlM_cons, hfirst]
    show List.foldlM t.step (folderPlace home _) [_] = _
    rw [List.foldlM_cons, Tree.step_none hfree]
    rfl
  rw [Tree.nodeAt, hmissing]
  rfl

theorem get_of_overlong (ho : Overlong root key)
    (hready : t.Ready root home (folderName (normalKey key))) (room : Option Nat) :
    get root t key room = (.error .nameTooLong, t) := by
  have hkey := isKey_normalKey ho.letters
  rw [get, getAt_eq, entryPath_eq root hkey, Tree.nodeAt, hready.resolve_overlong
    (isName_folderName hkey) (isName_entryName hkey) (short_folderName _) ho.entryName]
  rfl

/-- A put makes the folder before it finds the name too long. -/
theorem put_of_overlong (ho : Overlong root key) (hr : t.nodeAt root = .ok (home, .folder))
    (hfree : t.node? (folderPlace home (normalKey key)) = none) (a : Analysis) :
    let t' := t.put (folderPlace home (normalKey key)) .folder
    t'.Ready root home (folderName (normalKey key)) ∧
      put root t key a = (.error (.files (entryPath root key) .nameTooLong), t') := by
  intro t'
  have hkey := isKey_normalKey ho.letters
  obtain ⟨hresolve, hnode⟩ := Tree.nodeAt_eq_ok_iff.1 hr
  have hput (q : Place) := Tree.node?_put t _ q .folder (folderPlace_ne_nil home (normalKey key))
  have hkeeps : t.KeepsFolders t' := by
    intro q hq
    rw [hput]
    split
    · rfl
    · exact hq
  have hready : t'.Ready root home (folderName (normalKey key)) :=
    ⟨Tree.resolve_of_folders (t := t) rfl hkeeps hresolve, hkeeps _ hnode,
      (hput _).trans (if_pos rfl)⟩
  refine ⟨hready, ?_⟩
  have hpath := ho.path
  rw [put]
  rw [entryPath_eq root hkey] at hpath ⊢
  have hsize := Path.utf8ByteSize_text_below root (folderName (normalKey key))
  have hfolderPath := hsize []
  have hentryPath := hsize [entryName (normalKey key)]
  simp only [List.map_cons, List.map_nil, List.sum_cons, List.sum_nil] at hfolderPath hentryPath
  have hensure : t.ensureFolders (root.below [folderName (normalKey key)]) = (.ok (), t') := by
    rw [Tree.ensureFolders_below hresolve hnode (isName_folderName hkey) (short_folderName _)
      (.inl hfree) (by omega), Tree.withFolder]
    exact congrArg _ (if_pos (Option.isNone_iff_eq_none.2 hfree))
  have hset : t'.setContents
      (root.below [folderName (normalKey key), normalKey key ++ temporarySuffix]) .empty =
        .error .nameTooLong := by
    rw [Tree.setContents, hready.resolve_overlong (isName_folderName hkey)
      (isName_temporary hkey) (short_folderName _) ho.temporary]
    rfl
  rw [putAt, parent_below, temporaryPath_below, hensure]
  simp only [hset]
  rfl

/-! ## Runs -/

/-- A file that a put of the run has made: a complete entry in its place, or the file beside it that
a put left behind which failed. -/
def Made (root : Path) (room : Option Nat) (t : Tree) (calls : List Call) (q : Place)
    (b : ByteArray) : Prop :=
  ∃ before key a later, calls = before ++ .put key a :: later ∧
    ((q = entryPlace (t.placeOf root) (normalKey key) ∧ entryBytes a = .ok b) ∨
      (q = temporaryPlace (t.placeOf root) (normalKey key) ∧
        ¬Succeeds (put root (after root room t before) key a).1))

theorem Made.concat (h : Made root room t calls q b) (call : Call) :
    Made root room t (calls ++ [call]) q b := by
  obtain ⟨before, key, a, later, rfl, h⟩ := h
  exact ⟨before, key, a, later ++ [call], by simp, h⟩

/-- Every file was there before the run, or was made in it. -/
structure Traced (root : Path) (room : Option Nat) (t : Tree) (calls : List Call) (u : Tree) :
    Prop where
  sound : u.Sound
  here : u.here = t.here
  files : ∀ q b, u.node? q = some (.file b) →
    t.node? q = some (.file b) ∨ Made root room t calls q b

theorem after_concat (root : Path) (room : Option Nat) (t : Tree) (calls : List Call)
    (call : Call) :
    after root room t (calls ++ [call]) = (answer root room (after root room t calls) call).2 := by
  rw [after, List.foldl_concat]
  rfl

namespace Traced

variable {u u' : Tree}

theorem shrink (h : Traced root room t calls u) (hs : u'.Sound) (hhere : u'.here = u.here)
    (hf : ∀ q b, u'.node? q = some (.file b) → u.node? q = some (.file b)) (call : Call) :
    Traced root room t (calls ++ [call]) u' where
  sound := hs
  here := hhere.trans h.here
  files := fun q b hq => (h.files q b (hf q b hq)).imp_right (·.concat call)

theorem without_places (h : Traced root room t calls u) {places : List Place}
    (hf : ∀ q ∈ places, ∃ b, u.node? q = some (.file b)) (call : Call) :
    Traced root room t (calls ++ [call]) (places.foldl Tree.without u) := by
  refine h.shrink (sound_foldl_without h.sound hf) (here_foldl_without places u) ?_ call
  intro q b hq
  rw [node?_foldl_without fun q hq => ne_nil_of_file (hf q hq).choose_spec] at hq
  split at hq
  · cases hq
  · exact hq

theorem get (h : Traced root room t calls u) (key : String) :
    Traced root room t (calls ++ [.get key]) (get root u key room).2 := by
  rcases getAt_snd u (entryPath root key) room with hsame | ⟨q, b, hq, -, hremoved⟩
  · rw [Disk.get, hsame]
    exact h.shrink h.sound rfl (fun _ _ hq => hq) _
  · rw [Disk.get, hremoved]
    exact h.without_places (List.forall_mem_singleton.2 ⟨b, (Tree.nodeAt_eq_ok_iff.1 hq).2⟩) _

theorem clear (h : Traced root room t calls u) (hp : root.Plain) :
    Traced root room t (calls ++ [.clear]) (clear root u).2 := by
  by_cases hasked : root.Short ∧ Succeeds (u.start root)
  · obtain ⟨hl, s, hs⟩ := hasked
    rw [clear_of_start h.sound hp hl hs]
    exact h.without_places (fun q hq => (exists_file_of_mem_cleared h.sound hq).2) _
  · rw [clear_of_not hp hasked]
    exact h.shrink h.sound rfl (fun _ _ hq => hq) _

theorem put (h : Traced root room t calls (after root room t calls)) (hp : root.Plain)
    (hk : IsKey key) (a : Analysis) :
    Traced root room t (calls ++ [.put key a]) (put root (after root room t calls) key a).2 := by
  obtain ⟨t₁, hopens, hput⟩ := put_cases (after root room t calls) hp hk a
  have hhome : (after root room t calls).placeOf root = t.placeOf root := by
    rw [Tree.placeOf, Tree.placeOf, h.here]
  refine ⟨hput.sound (hopens.sound h.sound), (hput.here.trans hopens.here).trans h.here, ?_⟩
  intro q b hq
  have hold (hq : t₁.node? q = some (.file b)) :
      t.node? q = some (.file b) ∨ Made root room t (calls ++ [.put key a]) q b :=
    (h.files q b ((hopens.file_iff q b).1 hq)).imp_right (·.concat _)
  generalize hstored : Disk.put root (after root room t calls) key a = stored at hput hq
  obtain ⟨result, u⟩ := stored
  -- A file that `calls` has not made is the one beside the place, or the entry itself.
  cases result with
  | error fault =>
    rcases hput.node?_of_error q with hsame | ⟨hplace, -⟩
    · exact hold (hsame ▸ hq)
    · have hfailed : ¬Succeeds (Disk.put root (after root room t calls) key a).1 := by
        rw [hstored]
        exact not_succeeds_error fault
      exact .inr ⟨calls, key, a, [], rfl, .inr ⟨hhome ▸ hplace, hfailed⟩⟩
  | ok _ =>
    obtain ⟨c, hc, hnode⟩ := hput.node?_of_ok
    rw [hnode] at hq
    split at hq
    · rename_i hplace
      cases hq
      exact .inr ⟨calls, key, a, [], rfl, .inl ⟨hhome ▸ hplace, hc⟩⟩
    · split at hq
      · cases hq
      · exact hold hq

end Traced

theorem traced_after (ht : t.Sound) (hp : root.Plain)
    (hc : ∀ key a, .put key a ∈ calls → IsKey key) :
    Traced root room t calls (after root room t calls) := by
  induction calls using List.reverseRecOn with
  | nil => exact ⟨ht, rfl, fun _ _ hq => .inl hq⟩
  | append_singleton calls call ih =>
    have h := ih fun key a hmem => hc key a (List.mem_append_left _ hmem)
    rw [after_concat]
    cases call with
    | get key =>
      rw [answer_get_snd]
      exact h.get key
    | put key a =>
      rw [answer_put_snd]
      exact h.put hp (hc key a (by simp)) a
    | clear =>
      rw [answer_clear_snd]
      exact h.clear hp

/-- A put that fails leaves the files as they were, but for the one beside the entry's place, which
stays when a folder stands in that place or the analysis has no text; and then every run of lookups
and clearing is answered as without the put, if the names that are looked up are not too long for
files. If the name of the entry is too long and its folder was missing, the put has made the folder,
and a lookup that gave nothing is an error from then on. After any run of calls every file that was
not there before is a complete entry, or stands beside the place of an entry that a put failed to
store. -/
theorem put_failures (ht : t.Sound) (hp : root.Plain) (room : Option Nat) :
    (∀ key a fault t', IsKey key → put root t key a = (.error fault, t') →
      (∀ q, SameFile t t' q ∨
        (q = temporaryPlace (t.placeOf root) (normalKey key) ∧
          LeftBeside root t key a t' fault)) ∧
      ∀ calls, (∀ call ∈ calls, Reading root call) →
        answers (answer root room) t' calls = answers (answer root room) t calls) ∧
    (∀ key a b, Usable root key →
      t.nodeAt root = .ok (t.placeOf root, .folder) →
      t.node? (entryPlace (t.placeOf root) (normalKey key)) = some .folder →
      t.node? (temporaryPlace (t.placeOf root) (normalKey key)) ≠ some .folder →
      entryBytes a = .ok b →
      ∃ t', put root t key a = (.error (.files (entryPath root key) .isFolder), t') ∧
        t'.node? (temporaryPlace (t.placeOf root) (normalKey key)) = some (.file b)) ∧
    (∀ key a, Overlong root key →
      t.nodeAt root = .ok (t.placeOf root, .folder) →
      t.node? (folderPlace (t.placeOf root) (normalKey key)) = none →
      ∃ t', put root t key a = (.error (.files (entryPath root key) .nameTooLong), t') ∧
        get root t key room = (.ok none, t) ∧
        get root t' key room = (.error .nameTooLong, t')) ∧
    ∀ calls, (∀ key a, .put key a ∈ calls → IsKey key) → ∀ q b,
      (after root room t calls).node? q = some (.file b) →
      t.node? q = some (.file b) ∨ Made root room t calls q b := by
  refine ⟨fun key a fault t' hk h => ⟨files_of_failed hp hk h, fun calls hc => ?_⟩,
    fun key a b hu hroot he hq hb => ?_, fun key a ho hroot hfree => ?_,
    fun calls hc => (traced_after ht hp hc).files⟩
  · exact (alike_of_failed ht hp hk h).answers hp hc
  · refine ⟨_, put_onto_folder ht hp hu hroot he hq hb, ?_⟩
    rw [node?_beside, if_pos rfl]
  · obtain ⟨hready, hput⟩ := put_of_overlong ho hroot hfree a
    exact ⟨_, hput, get_of_no_folder ho.letters hroot ho.path hfree room,
      get_of_overlong ho hready room⟩

/-- A cache in which a folder stands in the place of an entry. -/
def folderInPlace : Tree := .ofFolders [["c"], ["c", "ab"], ["c", "ab", "abcd.json.gz"]] []

theorem folderInPlace_sound : folderInPlace.Sound := by
  refine Tree.sound_of_items ⟨?_, by decide⟩ ?_
  · intro i hi r _ _
    obtain ⟨p, -, rfl⟩ := List.mem_map.1 hi
    rfl
  · simp only [folderInPlace, Tree.ofFolders, List.map_cons, List.map_nil, List.forall_mem_cons]
    exact ⟨rfl, rfl, rfl, nofun⟩

theorem usable_abcd : Usable ⟨"/", ["c"]⟩ "abcd" := by decide +kernel

theorem put_failures_folder : ∃ t', put ⟨"/", ["c"]⟩ folderInPlace "abcd" { fileSize := 5 } =
      (.error (.files (entryPath ⟨"/", ["c"]⟩ "abcd") .isFolder), t') ∧
    answers (answer ⟨"/", ["c"]⟩ none) t' [.get "abcd", .clear] =
      answers (answer ⟨"/", ["c"]⟩ none) folderInPlace [.get "abcd", .clear] := by
  have hplain : Path.Plain ⟨"/", ["c"]⟩ := by decide
  obtain ⟨hfailed, hleft, -⟩ := put_failures folderInPlace_sound hplain none
  have hkey : normalKey "abcd" = "abcd" := by decide +kernel
  have hstorable : Analysis.Storable { fileSize := 5 } := by decide +kernel
  obtain ⟨-, b, hb, -⟩ := wrapped_readsBack hstorable
  obtain ⟨t', hput, -⟩ := hleft "abcd" _ b usable_abcd rfl (hkey ▸ rfl) (hkey ▸ nofun) hb
  have hshort : (entryPath ⟨"/", ["c"]⟩ "abcd").Short := by decide +kernel
  refine ⟨t', hput, (hfailed _ _ _ _ usable_abcd.letters hput).2 _ ?_⟩
  simp only [List.forall_mem_cons]
  exact ⟨⟨usable_abcd.letters, hshort⟩, trivial, List.forall_mem_nil _⟩

/-- The file that was written beside the folder is not taken away again. -/
theorem file_left_behind : ∃ t' b, put ⟨"/", ["c"]⟩ folderInPlace "abcd" { fileSize := 5 } =
      (.error (.files (entryPath ⟨"/", ["c"]⟩ "abcd") .isFolder), t') ∧
    folderInPlace.node? ["c", "ab", "abcd.json.tmp"] = none ∧
    t'.node? ["c", "ab", "abcd.json.tmp"] = some (.file b) := by
  have hkey : normalKey "abcd" = "abcd" := by decide +kernel
  have hstorable : Analysis.Storable { fileSize := 5 } := by decide +kernel
  obtain ⟨-, b, hb, -⟩ := wrapped_readsBack hstorable
  have hput := put_onto_folder folderInPlace_sound (by decide) usable_abcd rfl (hkey ▸ rfl)
    (hkey ▸ nofun) hb
  rw [hkey] at hput
  exact ⟨_, b, hput, rfl, (node?_beside _ _ _ _ _).trans (if_pos rfl)⟩

end Cache.Disk
end PETriage
