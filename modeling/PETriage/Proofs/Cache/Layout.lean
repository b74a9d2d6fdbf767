import PETriage.Proofs.Cache.Entry

/-!
# Keys that name a folder and a file

An entry has its place in a folder below the root, the folder being named for the first two
characters of the key in lower case and the file for all of it. That is so exactly if these are
names: slashes in a key, or points at its front, make another path of it.
-/
namespace PETriage.Cache.Disk

open Files (Path splitSlashes partsOf)

variable {key other suffix : String} {root p q : Path} {cs ds : List Char}

/-- A key, in lower case, that is a name by itself and whose first two characters are one. -/
structure Tame (key : String) : Prop where
  ne_empty : key ≠ ""
  slashless : ∀ c ∈ key.toList, c ≠ '/'
  ne_point : key ≠ "."
  pointless : ¬['.', '.'] <+: key.toList

instance (key : String) : Decidable (Tame key) :=
  decidable_of_iff (key ≠ "" ∧ '/' ∉ key.toList ∧ key ≠ "." ∧ ¬['.', '.'] <+: key.toList)
    ⟨fun ⟨h1, h2, h3, h4⟩ => ⟨h1, List.forall_mem_ne'.2 h2, h3, h4⟩,
      fun ⟨h1, h2, h3, h4⟩ => ⟨h1, List.forall_mem_ne'.1 h2, h3, h4⟩⟩

/-- One name of a path, which leads down. -/
structure IsStep (name : String) : Prop where
  slashless : ∀ c ∈ name.toList, c ≠ '/'
  ne_empty : name ≠ ""
  ne_point : name ≠ "."
  ne_points : name ≠ ".."

theorem join_of_isStep (root : Path) (h : IsStep key) :
    root.join (.ofText key) = root.below [key] := by
  rw [Path.ofText_of_none h.slashless,
    List.filter_cons_of_pos (by simp [h.ne_empty, h.ne_point]), List.filter_nil]
  exact if_pos rfl

theorem ne_of_length {s t : String} (h : t.toList.length < s.toList.length) : s ≠ t := by
  rintro rfl
  exact Nat.lt_irrefl _ h

/-- A name with an ending of three characters or more is neither of the two that are points. -/
theorem isStep_append (h : ∀ c ∈ key.toList, c ≠ '/') (hs : ∀ c ∈ suffix.toList, c ≠ '/')
    (hlength : 3 ≤ suffix.toList.length) : IsStep (key ++ suffix) := by
  have hshort (t : String) (ht : t.toList.length ≤ 2) : key ++ suffix ≠ t := by
    apply ne_of_length
    rw [String.toList_append, List.length_append]
    omega
  refine ⟨?_, hshort "" (by decide), hshort "." (by decide), hshort ".." (by decide)⟩
  rw [String.toList_append, List.forall_mem_append]
  exact ⟨h, hs⟩

theorem isStep_entryName (h : ∀ c ∈ key.toList, c ≠ '/') : IsStep (entryName key) :=
  isStep_append h (List.forall_mem_ne'.2 (by decide)) (by decide)

theorem isStep_temporary (h : ∀ c ∈ key.toList, c ≠ '/') : IsStep (key ++ temporarySuffix) :=
  isStep_append h (List.forall_mem_ne'.2 (by decide)) (by decide)

theorem toList_folderName (key : String) : (folderName key).toList = key.toList.take 2 :=
  String.toList_ofList

theorem slashless_folderName (h : ∀ c ∈ key.toList, c ≠ '/') :
    ∀ c ∈ (folderName key).toList, c ≠ '/' := by
  intro c hc
  rw [toList_folderName] at hc
  exact h c (List.mem_of_mem_take hc)

/-- A text that is shorter than two characters is its own front. -/
theorem folderName_eq_iff (h : other.toList.length < 2) : folderName key = other ↔ key = other := by
  rw [← String.toList_inj, toList_folderName, ← String.toList_inj]
  constructor
  · intro htake
    have hlength := congrArg List.length htake
    rw [List.length_take] at hlength
    rw [← htake, List.take_of_length_le (by omega)]
  · intro heq
    rw [heq, List.take_of_length_le (by omega)]

theorem folderName_eq_points_iff : folderName key = ".." ↔ ['.', '.'] <+: key.toList := by
  rw [← String.toList_inj, toList_folderName, List.prefix_iff_eq_take]
  exact eq_comm

theorem Tame.isStep_folderName (h : Tame key) : IsStep (folderName key) where
  slashless := slashless_folderName h.slashless
  ne_empty := mt (folderName_eq_iff (by decide)).1 h.ne_empty
  ne_point := mt (folderName_eq_iff (by decide)).1 h.ne_point
  ne_points := mt folderName_eq_points_iff.1 h.pointless

/-! ## Paths of tame keys -/

theorem entryPath_def (root : Path) (key : String) : entryPath root key =
    (root.join (.ofText (folderName (normalKey key)))).join
      (.ofText (entryName (normalKey key))) := rfl

theorem entryPath_of_slashless (root : Path) (h : ∀ c ∈ (normalKey key).toList, c ≠ '/') :
    entryPath root key =
      (root.join (.ofText (folderName (normalKey key)))).below [entryName (normalKey key)] := by
  rw [entryPath_def, join_of_isStep _ (isStep_entryName h)]

theorem entryPath_of_tame (root : Path) (h : Tame (normalKey key)) : entryPath root key =
    root.below [folderName (normalKey key), entryName (normalKey key)] := by
  rw [entryPath_of_slashless root h.slashless, join_of_isStep _ h.isStep_folderName,
    Path.below_below]
  rfl

theorem temporaryPath_of_tame (root : Path) (h : Tame (normalKey key)) :
    temporaryPath (entryPath root key) =
      root.below [folderName (normalKey key), normalKey key ++ temporarySuffix] := by
  rw [entryPath_of_tame root h, temporaryPath_below]

theorem entryPath_inj (h : Tame (normalKey key)) (ho : Tame (normalKey other)) :
    entryPath root other = entryPath root key ↔ normalKey other = normalKey key := by
  rw [entryPath_of_tame root h, entryPath_of_tame root ho, Path.below, Path.below,
    Files.Path.mk.injEq, List.append_cancel_left_eq, List.cons.injEq, List.cons.injEq]
  constructor
  · intro heq
    exact entryName_injective heq.2.2.1
  · intro heq
    rw [heq]
    exact ⟨rfl, rfl, rfl, rfl⟩

/-! ## Paths of other keys -/

/-- The last piece of a text goes on to the next slash. -/
theorem exists_splitSlashes (cs : List Char) : ∃ pieces piece, ∀ ds, (∀ c ∈ ds, c ≠ '/') →
    splitSlashes (cs ++ ds) = pieces ++ [piece ++ ds] ∧ ∀ c ∈ piece, c ≠ '/' := by
  induction cs with
  | nil => exact ⟨[], [], fun ds hds => ⟨Path.splitSlashes_of_none hds, nofun⟩⟩
  | cons c cs ih =>
    obtain ⟨pieces, piece, h⟩ := ih
    by_cases hc : c = '/'
    · refine ⟨[] :: pieces, piece, fun ds hds => ⟨?_, (h ds hds).2⟩⟩
      rw [List.cons_append, splitSlashes, if_pos (beq_iff_eq.2 hc), (h ds hds).1, List.cons_append]
    · cases pieces with
      | nil =>
        refine ⟨[], c :: piece, fun ds hds => ⟨?_, List.forall_mem_cons.2 ⟨hc, (h ds hds).2⟩⟩⟩
        rw [List.cons_append, splitSlashes, if_neg (by simpa using hc), (h ds hds).1]
        rfl
      | cons first pieces =>
        refine ⟨(c :: first) :: pieces, piece, fun ds hds => ⟨?_, (h ds hds).2⟩⟩
        rw [List.cons_append, splitSlashes, if_neg (by simpa using hc), (h ds hds).1]
        rfl

/-- The last name of a path to an entry is what follows the last slash of the key. -/
theorem exists_getLast_ofText (key : String) : ∃ tail, (∀ c ∈ tail.toList, c ≠ '/') ∧
    (Path.ofText (entryName key)).parts.getLast? = some (entryName tail) := by
  obtain ⟨pieces, piece, h⟩ := exists_splitSlashes key.toList
  obtain ⟨hsplit, hpiece⟩ := h entrySuffix.toList (List.forall_mem_ne'.2 (by decide))
  have htail : ∀ c ∈ (String.ofList piece).toList, c ≠ '/' := by rwa [String.toList_ofList]
  have hstep := isStep_entryName htail
  have hname : String.ofList (piece ++ entrySuffix.toList) = entryName (String.ofList piece) := by
    rw [String.ofList_append, String.ofList_toList]
    rfl
  have hlist : (entryName key).toList = key.toList ++ entrySuffix.toList := String.toList_append
  refine ⟨String.ofList piece, htail, ?_⟩
  rw [Path.ofText, partsOf, hlist, hsplit, List.map_append, List.filter_append,
    List.map_singleton, hname,
    List.filter_cons_of_pos (by simp [hstep.ne_empty, hstep.ne_point]), List.filter_nil,
    List.getLast?_concat]

theorem getLast_parts_join (h : q.parts.getLast? = some key) :
    (p.join q).parts.getLast? = some key := by
  rw [Path.join]
  split
  · rw [List.getLast?_append, h]
    rfl
  · exact h

/-- The names of the layout are those of the path for tame keys alone. -/
theorem entryPath_eq_iff (root : Path) (key : String) :
    entryPath root key = root.below [folderName (normalKey key), entryName (normalKey key)] ∧
      folderName (normalKey key) ≠ ".." ↔ Tame (normalKey key) := by
  refine ⟨?_, fun h => ⟨entryPath_of_tame root h, h.isStep_folderName.ne_points⟩⟩
  rintro ⟨heq, hpoints⟩
  have hslash : ∀ c ∈ (normalKey key).toList, c ≠ '/' := by
    obtain ⟨tail, htail, hlast⟩ := exists_getLast_ofText (normalKey key)
    have hentry := getLast_parts_join (p := root.join (.ofText (folderName (normalKey key)))) hlast
    rw [← entryPath_def, heq, Path.below, List.getLast?_append] at hentry
    have hsame : entryName (normalKey key) = entryName tail := Option.some.inj hentry
    rwa [entryName_injective hsame]
  have hfolder : (root.join (.ofText (folderName (normalKey key)))).parts =
      root.parts ++ [folderName (normalKey key)] := by
    rw [entryPath_of_slashless root hslash, Path.below, Path.below, Files.Path.mk.injEq] at heq
    refine List.append_cancel_right (heq.2.trans ?_)
    rw [List.append_assoc]
    rfl
  rw [Path.ofText_of_none (slashless_folderName hslash)] at hfolder
  have hkept := List.append_cancel_left hfolder
  have hmem := List.mem_filter.1 (hkept ▸ List.mem_singleton_self (folderName (normalKey key)))
  simp only [Bool.and_eq_true, bne_iff_ne, ne_eq] at hmem
  exact ⟨mt (folderName_eq_iff (by decide)).2 hmem.2.1, hslash,
    mt (folderName_eq_iff (by decide)).2 hmem.2.2, mt folderName_eq_points_iff.2 hpoints⟩

/-- The key is a single point, which is no folder: the file stands in the root itself. -/
theorem entryPath_of_point (root : Path) (h : normalKey key = ".") :
    entryPath root key = root.below [entryName (normalKey key)] := by
  have hslash : ∀ c ∈ (normalKey key).toList, c ≠ '/' := by
    rw [h]
    exact List.forall_mem_ne'.2 (by decide)
  have hfolder : Path.ofText (folderName (normalKey key)) = ⟨"", []⟩ := by
    rw [h]
    decide
  have hjoin : root.join ⟨"", []⟩ = root.below [] := if_pos rfl
  rw [entryPath_of_slashless root hslash, hfolder, hjoin, Path.below_below]
  rfl

/-- Two points at the front of a key lead out of the root. -/
theorem entryPath_of_points (root : Path) (hslash : ∀ c ∈ (normalKey key).toList, c ≠ '/')
    (h : ['.', '.'] <+: (normalKey key).toList) :
    entryPath root key = root.below ["..", entryName (normalKey key)] := by
  have hfolder : Path.ofText (folderName (normalKey key)) = ⟨"", [".."]⟩ := by
    rw [folderName_eq_points_iff.2 h]
    decide
  have hjoin : root.join ⟨"", [".."]⟩ = root.below [".."] := if_pos rfl
  rw [entryPath_of_slashless root hslash, hfolder, hjoin, Path.below_below]
  rfl

/-- A slash at the front of a key makes it a path of its own, whatever the root is. -/
theorem entryPath_of_rooted (root : Path) (h : (normalKey key).toList.head? = some '/') :
    entryPath root key = Path.ofText (entryName (normalKey key)) := by
  have hroot : (Path.ofText (entryName (normalKey key))).root ≠ "" := by
    obtain ⟨rest, hrest⟩ : ∃ rest, (normalKey key).toList = '/' :: rest := by
      cases hlist : (normalKey key).toList with
      | nil =>
        rw [hlist] at h
        cases h
      | cons c rest =>
        rw [hlist] at h
        cases h
        exact ⟨rest, rfl⟩
    rw [Path.ofText, entryName, String.toList_append, hrest]
    show Files.rootOf ('/' :: (rest ++ entrySuffix.toList)) ≠ ""
    rw [Files.rootOf, List.takeWhile_cons_of_pos (by decide), List.length_cons]
    split
    · omega
    · decide
    · decide
  rw [entryPath_def, Path.join, if_neg hroot]

theorem IsKey.tame (h : IsKey key) : Tame key := by
  have hplain (c : Char) (hc : c.isAlphanum = false) : c ∉ key.toList := by
    intro hmem
    rw [h.plain c hmem] at hc
    cases hc
  refine ⟨h.ne_empty, ?_, ?_, ?_⟩
  · rintro c hmem rfl
    exact hplain '/' (by decide) hmem
  · rintro rfl
    exact hplain '.' (by decide) (by decide)
  · intro hpoints
    exact hplain '.' (by decide) (hpoints.subset List.mem_cons_self)

end PETriage.Cache.Disk
