import PETriage.Proofs.Cache.Failures

/-!
# Entries that stay inside the cache

No call takes a folder away, so a root that leads to a folder does so for good. The entry of a tame
key stands in a folder below it, where clearing finds it, and the calls with that key touch no file
but the entry and the one beside it.
-/
namespace PETriage.Cache.Disk

open Report (Analysis)
open Files (Path Place Node Tree)

variable {t t' t'' u : Tree} {root path : Path} {home p q r : Place} {key other : String}
  {room : Option Nat}
  {a : Analysis} {b : ByteArray} {call : Call} {calls : List Call}

/-! ## Folders that stay -/

/-- Every folder stays, and no place is listed twice. -/
structure Steady (t t' : Tree) : Prop where
  here : t'.here = t.here
  folders : t.KeepsFolders t'
  tidy : t.Tidy [] → t'.Tidy []

namespace Steady

theorem refl (t : Tree) : Steady t t := ⟨rfl, fun _ hq => hq, id⟩

theorem trans (h : Steady t t') (h' : Steady t' t'') : Steady t t'' :=
  ⟨h'.here.trans h.here, fun q hq => h'.folders q (h.folders q hq), fun ht => h'.tidy (h.tidy ht)⟩

theorem of_grown (h : Tree.Grown t t') : Steady t t' := ⟨h.here, h.keepsFolders, h.tidy⟩

theorem put_file (h : t.node? q ≠ some .folder) (b : ByteArray) :
    Steady t (t.put q (.file b)) := by
  have hq : q ≠ [] := by
    rintro rfl
    exact h rfl
  exact ⟨rfl, .put_file hq h b, fun ht => ht.put hq _⟩

theorem without_file (h : t.node? q = some (.file b)) : Steady t (t.without q) :=
  ⟨rfl, keepsFolders_without h, fun ht => ht.without q⟩

theorem setContents (h : t.setContents path b = .ok u) : Steady t u := by
  obtain ⟨q, -, hq, rfl⟩ := Tree.eq_of_setContents h
  exact put_file hq b

theorem replaceFile {source target : Path} (h : t.replaceFile source target = .ok u) :
    Steady t u := by
  obtain ⟨⟨p, n⟩, hsource, h⟩ := bind_eq_ok_iff.1 h
  obtain ⟨q, -, h⟩ := bind_eq_ok_iff.1 h
  have hp := (Tree.nodeAt_eq_ok_iff.1 hsource).2
  cases n with
  | folder => cases h
  | file b =>
    have hq : t.node? q ≠ some .folder := by
      intro hq
      rw [hq] at h
      cases h
    have hu : u = (t.without p).put q (.file b) := by
      cases hn : t.node? q with
      | none =>
        rw [hn] at h
        exact (Except.ok.inj h).symm
      | some m =>
        rw [hn] at h
        cases m with
        | folder => cases h
        | file c => exact (Except.ok.inj h).symm
    have hwithout : (t.without p).node? q ≠ some .folder := by
      rw [Tree.node?_without t p q (ne_nil_of_file hp)]
      split
      · nofun
      · exact hq
    rw [hu]
    exact (without_file hp).trans (put_file hwithout b)

theorem putAt_opened (t : Tree) (entry : Path) (a : Analysis) :
    Steady (t.ensureFolders entry.parent).2 (putAt t entry a).2 := by
  rw [Disk.putAt]
  generalize t.ensureFolders entry.parent = opened
  obtain ⟨result, t₁⟩ := opened
  cases result with
  | error fault => exact .refl t₁
  | ok _ =>
    simp only
    split
    · exact .refl t₁
    · exact setContents ‹_›
    · rename_i hempty _
      refine (setContents hempty).trans ?_
      split
      · exact .refl _
      · rename_i hfull
        refine (setContents hfull).trans ?_
        split
        · exact .refl _
        · exact replaceFile ‹_›

theorem putAt (t : Tree) (entry : Path) (a : Analysis) : Steady t (putAt t entry a).2 :=
  (of_grown (Tree.ensureFolders_grown t entry.parent)).trans (putAt_opened t entry a)

theorem getAt (t : Tree) (path : Path) (room : Option Nat) : Steady t (getAt t path room).2 := by
  rcases getAt_snd t path room with hsame | ⟨q, b, hq, -, hremoved⟩
  · rw [hsame]
    exact .refl t
  · rw [hremoved]
    exact without_file (Tree.nodeAt_eq_ok_iff.1 hq).2

theorem foldl_without {places : List Place} (hf : ∀ q ∈ places, ∃ b, t.node? q = some (.file b)) :
    Steady t (places.foldl Tree.without t) := by
  refine ⟨here_foldl_without places t, fun q hq => ?_, fun ht => tidy_foldl_without places ht⟩
  rw [node?_foldl_without fun q hq => ne_nil_of_file (hf q hq).choose_spec, if_neg, hq]
  intro hmem
  obtain ⟨b, hb⟩ := hf q hmem
  cases hq.symm.trans hb

end Steady

theorem file_of_mem_cleared (ht : t.Tidy [])
    (hq : q ∈ (t.under home).filterMap (clearedPlace? home)) :
    ∃ b, t.node? q = some (.file b) := by
  obtain ⟨⟨rest, n⟩, hmem, hq⟩ := List.mem_filterMap.1 hq
  obtain ⟨hne, i, hi, hplace, hn⟩ := Tree.mem_under_iff.1 hmem
  have hlisted : (home ++ rest, n) ∈ t.under [] :=
    Tree.mem_under_iff.2 ⟨List.append_ne_nil_of_right_ne_nil _ hne, i, hi, hplace, hn⟩
  have hnode := ht.node?_of_mem hlisted
  rw [clearedPlace?_eq_some hq]
  cases n with
  | folder =>
    simp [clearedPlace?] at hq
  | file b => exact ⟨b, hnode⟩

theorem Steady.clear (ht : t.Tidy []) (root : Path) : Steady t (clear root t).2 := by
  cases hn : t.nodeAt root with
  | error fault =>
    rw [Disk.clear, hn]
    exact .refl t
  | ok found =>
    obtain ⟨home, n⟩ := found
    cases n with
    | folder =>
      have hgone : ∀ q ∈ (t.under home).filterMap (clearedPlace? home), ∃ b,
          t.node? q = some (.file b) := fun q hq => file_of_mem_cleared ht hq
      have hsteady := foldl_without hgone
      rw [clear_of_nodeAt hn]
      exact hsteady
    | file b =>
      rw [Disk.clear, hn]
      exact .refl t

theorem Steady.answer (ht : t.Tidy []) (root : Path) (room : Option Nat) (call : Call) :
    Steady t (answer root room t call).2 := by
  cases call with
  | get key =>
    rw [answer_get_snd]
    exact .getAt t _ room
  | put key a =>
    rw [answer_put_snd]
    exact .putAt t _ a
  | clear =>
    rw [answer_clear_snd]
    exact .clear ht root

/-- No run of calls, with whatever keys, takes a folder away. -/
theorem Steady.after (ht : t.Tidy []) (root : Path) (room : Option Nat) (calls : List Call) :
    Steady t (after root room t calls) := by
  induction calls generalizing t with
  | nil => exact .refl t
  | cons call calls ih =>
    have hcall := Steady.answer ht root room call
    exact hcall.trans (ih (hcall.tidy ht))

/-! ## What clearing finds -/

/-- Below a root that is a folder clearing leaves no file in the place of an entry, and it counts
each that was there. -/
theorem clear_finds (h : t.nodeAt root = .ok (home, .folder)) (key : String) (b : ByteArray) :
    (t.node? (entryPlace home key) = some (.file b) → 1 ≤ (clear root t).1) ∧
      (clear root t).2.node? (entryPlace home key) ≠ some (.file b) := by
  rw [clear_of_nodeAt h]
  have hlisted (hnode : t.node? (entryPlace home key) = some (.file b)) :
      entryPlace home key ∈ (t.under home).filterMap (clearedPlace? home) :=
    List.mem_filterMap.2 ⟨_, Tree.mem_under_of_node? (List.cons_ne_nil _ _) hnode,
      clearedPlace?_entry home key b⟩
  have hplaces : ∀ q ∈ (t.under home).filterMap (clearedPlace? home), q ≠ [] := by
    intro q hq
    obtain ⟨⟨rest, n⟩, hmem, hq⟩ := List.mem_filterMap.1 hq
    rw [clearedPlace?_eq_some hq]
    exact List.append_ne_nil_of_right_ne_nil _ (Tree.mem_under_iff.1 hmem).1
  refine ⟨fun hnode => List.length_pos_of_mem (hlisted hnode), fun hnode => ?_⟩
  rw [node?_foldl_without hplaces] at hnode
  split at hnode
  · cases hnode
  · exact absurd (hlisted hnode) ‹_›

/-! ## Tame keys -/

/-- What holds of a tame key: the paths of its files, the keys that share them, the files that calls
with it touch, and what clearing makes of a file that was put under it. -/
structure Inside (root : Path) (t : Tree) (key : String) : Prop where
  entry : entryPath root key = root.below [folderName (normalKey key), entryName (normalKey key)]
  temporary : temporaryPath (entryPath root key) =
    root.below [folderName (normalKey key), normalKey key ++ temporarySuffix]
  names : IsStep (folderName (normalKey key)) ∧ IsStep (entryName (normalKey key)) ∧
    IsStep (normalKey key ++ temporarySuffix)
  shared : ∀ other, Tame (normalKey other) →
    (entryPath root other = entryPath root key ↔ normalKey other = normalKey key)
  get_elsewhere : ∀ room q, q ≠ entryPlace (root.leads t.here) (normalKey key) →
    (get root t key room).2.node? q = t.node? q
  put_elsewhere : ∀ a q, q ≠ entryPlace (root.leads t.here) (normalKey key) →
    q ≠ temporaryPlace (root.leads t.here) (normalKey key) → SameFile t (put root t key a).2 q
  stored : ∀ a, (put root t key a).1 = .ok () → ∃ b, entryBytes a = .ok b ∧
    (put root t key a).2.node? (entryPlace (root.leads t.here) (normalKey key)) = some (.file b) ∧
    (put root t key a).2.node? (temporaryPlace (root.leads t.here) (normalKey key)) = none
  cleared : ∀ a room calls, t.Tidy [] → (put root t key a).1 = .ok () →
    let later := after root room (put root t key a).2 calls
    ∀ other b,
      (later.node? (entryPlace (root.leads t.here) (normalKey other)) = some (.file b) →
        1 ≤ (clear root later).1) ∧
      (clear root later).2.node? (entryPlace (root.leads t.here) (normalKey other)) ≠
        some (.file b)

theorem getAt_elsewhere (hk : Tame (normalKey key))
    (hq : q ≠ entryPlace (root.leads t.here) (normalKey key)) :
    (get root t key room).2.node? q = t.node? q := by
  have hplain : ".." ∉ [folderName (normalKey key), entryName (normalKey key)] := by
    simp only [List.mem_cons, List.not_mem_nil, or_false, not_or]
    exact ⟨hk.isStep_folderName.ne_points.symm, (isStep_entryName hk.slashless).ne_points.symm⟩
  rcases getAt_snd t (entryPath root key) room with hsame | ⟨p, b, hp, -, hremoved⟩
  · rw [get, hsame]
  · obtain ⟨hresolve, hnode⟩ := Tree.nodeAt_eq_ok_iff.1 hp
    have hplace : p = entryPlace (root.leads t.here) (normalKey key) := by
      rw [Tree.eq_leads_of_resolve hresolve, entryPath_of_tame root hk, Path.leads_below,
        Path.foldl_turn_of_plain hplain]
      rfl
    rw [get, hremoved, Tree.node?_without t p q (ne_nil_of_file hnode), if_neg (hplace ▸ hq)]

theorem put_elsewhere (hk : Tame (normalKey key)) (a : Analysis)
    (hq : q ≠ entryPlace (root.leads t.here) (normalKey key))
    (hq' : q ≠ temporaryPlace (root.leads t.here) (normalKey key)) :
    SameFile t (put root t key a).2 q := by
  obtain ⟨hput, -⟩ := put_of_tame root t hk a
  have hgrown := Tree.ensureFolders_grown t (root.below [folderName (normalKey key)])
  have hsame : (put root t key a).2.node? q =
      (t.ensureFolders (root.below [folderName (normalKey key)])).2.node? q := by
    generalize put root t key a = done at hput
    obtain ⟨result, t'⟩ := done
    cases result with
    | error fault => exact (hput.node?_of_error q).resolve_right fun hnew => hq' hnew.1
    | ok _ =>
      obtain ⟨b, -, hnode⟩ := hput.node?_of_ok
      rw [hnode, if_neg hq, if_neg hq']
  intro b
  rw [hsame]
  exact hgrown.file_iff q b

/-- A put that succeeds has made the root a folder, if it was none. -/
theorem nodeAt_of_put (hk : Tame (normalKey key)) (h : (put root t key a).1 = .ok ()) :
    (put root t key a).2.nodeAt root = .ok (root.leads t.here, .folder) := by
  obtain ⟨-, hopened⟩ := put_of_tame root t hk a
  have hgrown := Tree.ensureFolders_grown t (root.below [folderName (normalKey key)])
  obtain ⟨q, hresolve⟩ := Tree.resolve_of_ensureFolders (hopened h)
  have hroot := Tree.nodeAt_of_resolve_below hresolve
  have hsteady := Steady.putAt_opened t (entryPath root key) a
  rw [hgrown.here] at hroot
  rw [entryPath_of_tame root hk, parent_below, ← entryPath_of_tame root hk] at hsteady
  rw [put]
  exact Tree.nodeAt_of_keepsFolders hsteady.here hsteady.folders hroot

theorem inside_of_tame (root : Path) (t : Tree) (hk : Tame (normalKey key)) :
    Inside root t key where
  entry := entryPath_of_tame root hk
  temporary := temporaryPath_of_tame root hk
  names := ⟨hk.isStep_folderName, isStep_entryName hk.slashless, isStep_temporary hk.slashless⟩
  shared := fun _ ho => entryPath_inj hk ho
  get_elsewhere := fun _ _ hq => getAt_elsewhere hk hq
  put_elsewhere := fun a _ hq hq' => put_elsewhere hk a hq hq'
  stored := by
    intro a h
    obtain ⟨hput, -⟩ := put_of_tame root t hk a
    rw [h] at hput
    obtain ⟨b, hb, hnode⟩ := hput.node?_of_ok
    refine ⟨b, hb, (hnode _).trans (if_pos rfl), (hnode _).trans ?_⟩
    rw [if_neg (temporaryPlace_ne_entryPlace _ _ _), if_pos rfl]
  cleared := by
    intro a room calls ht h later other b
    have hput := Steady.putAt t (entryPath root key) a
    have hlater := Steady.after (hput.tidy ht) root room calls
    exact clear_finds
      (Tree.nodeAt_of_keepsFolders hlater.here hlater.folders (nodeAt_of_put hk h)) _ b

/-- A key has its files in the place that is meant for them, in a folder named for its front below
the root, exactly if it is tame; then calls with it touch no other file, another tame key shares
them only if it is the same in lower case, and clearing finds what was put. A single point has its
file in the root itself, two points at the front lead out of it, and with a slash at the front the
root makes no difference. -/
theorem inside_iff_tame (root : Path) (t : Tree) (key : String) :
    (entryPath root key = root.below [folderName (normalKey key), entryName (normalKey key)] ∧
      folderName (normalKey key) ≠ ".." ↔ Tame (normalKey key)) ∧
    (Tame (normalKey key) → Inside root t key) ∧
    (normalKey key = "." → entryPath root key = root.below [entryName (normalKey key)]) ∧
    ((∀ c ∈ (normalKey key).toList, c ≠ '/') → ['.', '.'] <+: (normalKey key).toList →
      entryPath root key = root.below ["..", entryName (normalKey key)]) ∧
    ((normalKey key).toList.head? = some '/' →
      entryPath root key = Path.ofText (entryName (normalKey key))) :=
  ⟨entryPath_eq_iff root key, inside_of_tame root t, entryPath_of_point root,
    entryPath_of_points root, entryPath_of_rooted root⟩

/-- A cache with nothing in it. -/
def emptyCache : Tree := .ofFolders [["c"]] []

theorem emptyCache_tidy : emptyCache.Tidy [] := by
  refine ⟨?_, by decide⟩
  intro i hi r _ _
  obtain ⟨p, -, rfl⟩ := List.mem_map.1 hi
  rfl

theorem inside_iff_tame_abcd : ∃ t' b, put ⟨"/", ["c"]⟩ emptyCache "ABcd" { fileSize := 5 } =
      (.ok (), t') ∧ t'.node? ["c", "ab", "abcd.json.gz"] = some (.file b) ∧
    1 ≤ (clear ⟨"/", ["c"]⟩ t').1 ∧
    (clear ⟨"/", ["c"]⟩ t').2.node? ["c", "ab", "abcd.json.gz"] ≠ some (.file b) := by
  have hkey : normalKey "ABcd" = "abcd" := by decide +kernel
  obtain ⟨-, hinside, -⟩ := inside_iff_tame ⟨"/", ["c"]⟩ emptyCache "ABcd"
  rw [hkey] at hinside
  have hi := hinside (by decide)
  have hfits : Fits ⟨"/", ["c"]⟩ "abcd" := by
    have h : Usable ⟨"/", ["c"]⟩ "ABcd" := by decide +kernel
    exact hkey ▸ h.fits
  have hstorable : Analysis.Storable { fileSize := 5 } := by decide +kernel
  obtain ⟨-, c, hc, -⟩ := wrapped_readsBack hstorable
  have hput : put ⟨"/", ["c"]⟩ emptyCache "ABcd" { fileSize := 5 } =
      (.ok (), written emptyCache ["c"] "abcd" c) := by
    rw [put, hi.entry, hkey]
    have hentry : emptyCache.node? (entryPlace ["c"] "abcd") ≠ some .folder := by
      intro h
      cases h
    exact putAt_below rfl rfl hfits (.inl rfl) rfl hentry hc
  have hok := congrArg Prod.fst hput
  obtain ⟨b, -, hnode, -⟩ := hi.stored _ hok
  obtain ⟨hcount, hgone⟩ := hi.cleared _ none [] emptyCache_tidy hok "ABcd" b
  rw [hkey, hput] at hnode
  rw [hkey, hput] at hcount hgone
  exact ⟨_, b, hput, hnode, hcount hnode, hgone⟩

/-- A put under two points writes beside the root, where clearing does not find the file. -/
theorem points_lead_out : ∃ t' b, put ⟨"/", ["c"]⟩ emptyCache ".." { fileSize := 5 } =
      (.ok (), t') ∧ t'.node? ["...json.gz"] = some (.file b) ∧
    clear ⟨"/", ["c"]⟩ t' = (0, t') := by
  have hkey : normalKey ".." = ".." := by decide +kernel
  have hstorable : Analysis.Storable { fileSize := 5 } := by decide +kernel
  obtain ⟨-, b, hb, -⟩ := wrapped_readsBack hstorable
  have hpath : entryPath ⟨"/", ["c"]⟩ ".." = ⟨"/", ["c", "..", "...json.gz"]⟩ := by decide +kernel
  have hensure : emptyCache.ensureFolders (Path.parent ⟨"/", ["c", "..", "...json.gz"]⟩) =
      (.ok (), emptyCache) := rfl
  refine ⟨(((emptyCache.put ["...json.tmp"] (.file .empty)).put ["...json.tmp"] (.file b)).without
    ["...json.tmp"]).put ["...json.gz"] (.file b), b, ?_, rfl, rfl⟩
  rw [put, hpath, putAt, hensure, hb]
  rfl

end PETriage.Cache.Disk
