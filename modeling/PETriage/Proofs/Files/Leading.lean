import PETriage.Proofs.Files.Sound

/-!
# Where any path leads

A path can only lead to one place, whatever is there: two points lead one name back up and every
other name leads down. Making the folders on its way changes nothing else, and then the path, and
each path that it goes on from, leads to its place.
-/
namespace PETriage.Files

namespace Path

def turn (p : Place) (name : String) : Place := if name = ".." then p.dropLast else p ++ [name]

/-- The place that the path leads to from another place. -/
def leads (path : Path) (here : Place) : Place :=
  path.parts.foldl turn (if path.root = "" then here else [])

theorem leads_below (root : Path) (names : List String) (here : Place) :
    (root.below names).leads here = names.foldl turn (root.leads here) := List.foldl_append

theorem turn_of_ne {name : String} (h : name ≠ "..") (p : Place) : turn p name = p ++ [name] :=
  if_neg h

theorem foldl_turn_of_plain {names : List String} (h : ".." ∉ names) (p : Place) :
    names.foldl turn p = p ++ names := by
  induction names generalizing p with
  | nil => exact (List.append_nil p).symm
  | cons name names ih =>
    rw [List.mem_cons, not_or] at h
    rw [List.foldl_cons, turn_of_ne (Ne.symm h.1), ih h.2, List.append_assoc, List.singleton_append]

theorem utf8ByteSize_text_le (root : Path) (name : String) :
    root.text.utf8ByteSize ≤ (root.below [name]).text.utf8ByteSize ∨
      root.text.utf8ByteSize ≤ 1 := by
  have hbelow := utf8ByteSize_text_below root name []
  by_cases hparts : root.parts = []
  · by_cases hroot : root.root = ""
    · right
      rw [text, hroot, hparts]
      decide
    · left
      rw [text, hparts, if_neg (by simp [hroot]), String.utf8ByteSize_append]
      rw [hparts] at hbelow
      have hempty : ("/".intercalate []).utf8ByteSize = 0 := rfl
      simp only [List.map_nil, List.sum_nil] at hbelow
      omega
  · have hsize := utf8ByteSize_text hparts
    left
    simp only [List.map_nil, List.sum_nil] at hbelow
    omega

end Path

namespace Tree

variable {t t' : Tree} {p q s : Place} {path root : Path} {name : String} {names : List String}
  {n : Node} {b : ByteArray}

/-! ## The place of a path -/

theorem eq_turn_of_step (h : t.step p name = .ok q) : q = Path.turn p name := by
  by_cases hn : name = ".."
  · rw [step, hn] at h
    rw [Path.turn, if_pos hn]
    split at h
    · cases h
    · cases h
    · rw [if_pos rfl] at h
      cases h
      rfl
  · rw [Path.turn_of_ne hn, eq_of_step h hn]

theorem eq_foldl_turn (h : names.foldlM t.step s = .ok p) : p = names.foldl Path.turn s := by
  induction names generalizing s with
  | nil =>
    cases h
    rfl
  | cons name names ih =>
    obtain ⟨q, hq, h⟩ := bind_eq_ok_iff.1 h
    rw [ih h, eq_turn_of_step hq, List.foldl_cons]

theorem eq_leads_of_resolve (h : t.resolve path = .ok p) : p = path.leads t.here := by
  obtain ⟨s, hs, h⟩ := resolve_eq_ok_iff.1 h
  rw [eq_foldl_turn h, eq_of_start hs, Path.leads]

theorem leads_of_plain (h : path.Plain) : path.leads t.here = t.placeOf path := by
  rw [Path.leads, Path.foldl_turn_of_plain h, placeOf]

/-- Where a path leads on from, that can be asked for too. -/
theorem start_of_below (h : t.start (root.below [name]) = .ok s) : t.start root = .ok s := by
  have hsize := Path.utf8ByteSize_text_le root name
  rw [start] at h ⊢
  split at h
  · cases h
  rename_i hzero
  split at h
  · cases h
  rename_i hlong
  have hlimit : pathLimit = 4096 := rfl
  rw [if_neg, if_neg]
  · exact h
  · omega
  · intro hany
    refine hzero ?_
    rw [Path.below, List.any_append, hany, Bool.true_or]

theorem ne_zero_of_start (h : t.start path = .ok s) :
    ∀ name ∈ path.parts, ∀ c ∈ name.toList, c ≠ Char.ofNat 0 := by
  rintro name hname _ hc rfl
  rw [start, if_pos] at h
  · cases h
  · exact List.any_eq_true.2 ⟨name, hname, by simpa using hc⟩

/-- A path that goes on below a folder shows that the folder is there. -/
theorem nodeAt_of_resolve_below (h : t.resolve (root.below [name]) = .ok q) :
    t.nodeAt root = .ok (root.leads t.here, .folder) := by
  obtain ⟨s, hs, h⟩ := resolve_eq_ok_iff.1 h
  rw [Path.below, List.foldlM_append] at h
  obtain ⟨p, hp, hlast⟩ := bind_eq_ok_iff.1 h
  obtain ⟨_, hstep, -⟩ := bind_eq_ok_iff.1 hlast
  have hresolve : t.resolve root = .ok p := resolve_eq_ok_iff.2 ⟨s, start_of_below hs, hp⟩
  rw [← eq_leads_of_resolve hresolve]
  exact nodeAt_eq_ok_iff.2 ⟨hresolve, node?_of_step hstep⟩

theorem nodeAt_of_keepsFolders (hhere : t'.here = t.here) (hf : t.KeepsFolders t')
    (h : t.nodeAt path = .ok (p, .folder)) : t'.nodeAt path = .ok (p, .folder) := by
  obtain ⟨hresolve, hn⟩ := nodeAt_eq_ok_iff.1 h
  exact nodeAt_eq_ok_iff.2 ⟨resolve_of_folders hhere hf hresolve, hf p hn⟩

/-! ## Folders that are made -/

/-- Nothing is new but folders, where nothing was. -/
structure Grown (t t' : Tree) : Prop where
  here : t'.here = t.here
  node? : ∀ q, t'.node? q = t.node? q ∨ (t.node? q = none ∧ t'.node? q = some .folder)
  tidy : t.Tidy [] → t'.Tidy []

namespace Grown

theorem refl (t : Tree) : Grown t t := ⟨rfl, fun _ => .inl rfl, id⟩

theorem folder (hq : t.node? q = none) (h : Grown (t.put q .folder) t') : Grown t t' := by
  have hne : q ≠ [] := by
    rintro rfl
    cases hq
  refine ⟨h.here, fun r => ?_, fun ht => h.tidy (ht.put hne .folder)⟩
  have hr := h.node? r
  rw [node?_put t q r _ hne] at hr
  split at hr
  · rename_i heq
    subst heq
    exact .inr ⟨hq, hr.resolve_right fun hnone => absurd hnone.1 (Option.some_ne_none _)⟩
  · exact hr

theorem keepsFolders (h : Grown t t') : t.KeepsFolders t' := by
  intro q hq
  rcases h.node? q with hsame | ⟨hnone, -⟩
  · rw [hsame, hq]
  · cases hq.symm.trans hnone

theorem file_iff (h : Grown t t') (q : Place) (b : ByteArray) :
    t'.node? q = some (.file b) ↔ t.node? q = some (.file b) := by
  rcases h.node? q with hsame | ⟨hnone, hfolder⟩
  · rw [hsame]
  · rw [hnone, hfolder]
    exact iff_of_false nofun nofun

end Grown

theorem foldersFrom_grown (t : Tree) (p : Place) (names : List String) :
    Grown t (t.foldersFrom p names).2 := by
  induction names generalizing p t with
  | nil =>
    rw [foldersFrom]
    split <;> exact .refl t
  | cons name names ih =>
    rw [foldersFrom]
    cases hq : t.step p name with
    | error fault => exact .refl t
    | ok q =>
      simp only
      split
      · exact .folder (Option.isNone_iff_eq_none.1 ‹_›) (ih _ _)
      · exact ih _ _

/-- When all folders are made, the names lead through them. -/
theorem foldlM_step_of_foldersFrom (h : (t.foldersFrom p names).1 = .ok ()) :
    ∃ q, names.foldlM (t.foldersFrom p names).2.step p = .ok q := by
  induction names generalizing p t with
  | nil => exact ⟨p, rfl⟩
  | cons name names ih =>
    have hgrown := foldersFrom_grown t p (name :: names)
    rw [foldersFrom] at h hgrown ⊢
    cases hq : t.step p name with
    | error fault =>
      rw [hq] at h
      cases h
    | ok q =>
      rw [hq] at h hgrown
      simp only at h hgrown ⊢
      obtain ⟨r, hr⟩ := ih h
      have hfolder := node?_of_step hq
      -- The step depends on the folder that it starts from alone, and that one is kept.
      have hstep : (foldersFrom (if (t.node? q).isNone then t.put q .folder else t) q
          names).2.step p name = .ok q := by
        rw [← hq, step, step, hfolder, hgrown.keepsFolders p hfolder]
      exact ⟨r, bind_eq_ok_iff.2 ⟨q, hstep, hr⟩⟩

theorem ensureFolders_grown (t : Tree) (path : Path) : Grown t (t.ensureFolders path).2 := by
  rw [ensureFolders]
  cases t.start path with
  | error fault => exact .refl t
  | ok s =>
    simp only
    split
    · exact .refl t
    · exact foldersFrom_grown t s path.parts

theorem resolve_of_ensureFolders (h : (t.ensureFolders path).1 = .ok ()) :
    ∃ q, (t.ensureFolders path).2.resolve path = .ok q := by
  have hgrown := ensureFolders_grown t path
  rw [ensureFolders] at h hgrown ⊢
  cases hs : t.start path with
  | error fault =>
    rw [hs] at h
    cases h
  | ok s =>
    rw [hs] at h hgrown
    simp only at h hgrown ⊢
    split at h
    · cases h
    · rename_i hdeep
      rw [if_neg hdeep] at hgrown ⊢
      obtain ⟨q, hq⟩ := foldlM_step_of_foldersFrom h
      have hstart : (t.foldersFrom s path.parts).2.start path = .ok s := by
        rw [← hs, start, start, hgrown.here]
      exact ⟨q, resolve_eq_ok_iff.2 ⟨s, hstart, hq⟩⟩

end Tree
end PETriage.Files
