import Mathlib.Algebra.GroupWithZero.Nat
import PETriage.Files.Tree
import PETriage.Proofs.Except

/-!
# Paths that lead below a folder

A path that leads to a folder still does so while folders are kept. Names that follow it are
taken one by one from there, unless the path as a whole is too long.
-/
namespace PETriage.Files

/-- A name that is one step of a path, down into a folder. -/
structure IsName (s : String) : Prop where
  plain : ∀ c ∈ s.toList, c ≠ '/' ∧ c ≠ Char.ofNat 0
  ne_empty : s ≠ ""
  ne_point : s ≠ "."
  ne_points : s ≠ ".."

namespace Path

variable {root p : Path} {names : List String} {s : String} {cs : List Char}

def below (root : Path) (names : List String) : Path := ⟨root.root, root.parts ++ names⟩

theorem splitSlashes_of_none (h : ∀ c ∈ cs, c ≠ '/') : splitSlashes cs = [cs] := by
  induction cs with
  | nil => rfl
  | cons c cs ih =>
    rw [List.forall_mem_cons] at h
    rw [splitSlashes, if_neg (by simpa using h.1), ih h.2]

/-- A text without a slash is one name, or none when it is empty or a single point. -/
theorem ofText_of_none (h : ∀ c ∈ s.toList, c ≠ '/') :
    ofText s = ⟨"", [s].filter fun s => s != "" && s != "."⟩ := by
  have hroot : rootOf s.toList = "" := by
    have htake : s.toList.takeWhile (· == '/') = [] := by
      cases hs : s.toList with
      | nil => rfl
      | cons c cs =>
        rw [hs] at h
        exact List.takeWhile_cons_of_neg (by simpa using h c List.mem_cons_self)
    rw [rootOf, htake]
    rfl
  rw [ofText, hroot, partsOf, splitSlashes_of_none h, List.map_singleton, String.ofList_toList]

theorem ofText_of_isName (h : IsName s) : ofText s = ⟨"", [s]⟩ := by
  rw [ofText_of_none fun c hc => (h.plain c hc).1,
    List.filter_cons_of_pos (by simp [h.ne_empty, h.ne_point]), List.filter_nil]

theorem join_of_isName (root : Path) (h : IsName s) : root.join (ofText s) = root.below [s] := by
  rw [ofText_of_isName h]
  exact if_pos rfl

theorem below_below (root : Path) (names more : List String) :
    (root.below names).below more = root.below (names ++ more) := by
  simp only [below, List.append_assoc]

/-! ## Lengths -/

theorem utf8ByteSize_intercalate (s : String) (names : List String) :
    ("/".intercalate (s :: names)).utf8ByteSize =
      s.utf8ByteSize + (names.map fun name => 1 + name.utf8ByteSize).sum := by
  induction names generalizing s with
  | nil => simp
  | cons name names ih =>
    rw [String.intercalate_cons_of_ne_nil (List.cons_ne_nil _ _), String.utf8ByteSize_append,
      String.utf8ByteSize_append, ih, List.map_cons, List.sum_cons]
    have hslash : "/".utf8ByteSize = 1 := rfl
    omega

theorem utf8ByteSize_text (h : p.parts ≠ []) : p.text.utf8ByteSize + 1 =
    p.root.utf8ByteSize + (p.parts.map fun name => 1 + name.utf8ByteSize).sum := by
  have hshown : ¬(p.root = "" && p.parts.isEmpty) = true := by simp [h]
  rw [text, if_neg hshown, String.utf8ByteSize_append]
  cases hp : p.parts with
  | nil => exact absurd hp h
  | cons s names =>
    rw [utf8ByteSize_intercalate, List.map_cons, List.sum_cons]
    omega

theorem utf8ByteSize_text_below (root : Path) (name : String) (names : List String) :
    (root.below (name :: names)).text.utf8ByteSize + 1 = root.root.utf8ByteSize +
      (root.parts.map fun name => 1 + name.utf8ByteSize).sum + (1 + name.utf8ByteSize) +
        (names.map fun name => 1 + name.utf8ByteSize).sum := by
  rw [utf8ByteSize_text (by simp [below]), below, List.map_append, List.sum_append,
    List.map_cons, List.sum_cons]
  show root.root.utf8ByteSize + _ = _
  omega

end Path

namespace Tree

variable {t t' : Tree} {p q s : Place} {root : Path} {name : String} {names parts : List String}

/-! ## Steps -/

theorem node?_of_step (h : t.step p name = .ok q) : t.node? p = some .folder := by
  rw [step] at h
  split at h
  · cases h
  · cases h
  · assumption

theorem step_folder (hp : t.node? p = some .folder) (hn : IsName name)
    (hl : name.utf8ByteSize ≤ nameLimit) : t.step p name = .ok (p ++ [name]) := by
  rw [step, hp]
  simp only [if_neg hn.ne_points, if_neg (Nat.not_lt.2 hl)]

theorem step_overlong (hp : t.node? p = some .folder) (hn : name ≠ "..")
    (hl : nameLimit < name.utf8ByteSize) : t.step p name = .error .nameTooLong := by
  rw [step, hp]
  simp only [if_neg hn, if_pos hl]

theorem step_none (hp : t.node? p = none) (name : String) : t.step p name = .error .missing := by
  rw [step, hp]

/-- Every folder of the one tree is a folder of the other. -/
def KeepsFolders (t t' : Tree) : Prop := ∀ q, t.node? q = some .folder → t'.node? q = some .folder

/-- Names that lead through folders lead to the same place while these are kept. -/
theorem foldlM_step_of_folders (hf : t.KeepsFolders t')
    (h : parts.foldlM t.step s = .ok p) : parts.foldlM t'.step s = .ok p := by
  induction parts generalizing s with
  | nil => exact h
  | cons name parts ih =>
    rw [List.foldlM_cons, bind_eq_ok_iff] at h ⊢
    obtain ⟨q, hq, h⟩ := h
    have hstep : t'.step s name = t.step s name := by
      have hs := node?_of_step hq
      rw [step, step, hs, hf s hs]
    exact ⟨q, hstep.trans hq, ih h⟩

theorem resolve_eq_ok_iff : t.resolve root = .ok p ↔
    ∃ s, t.start root = .ok s ∧ root.parts.foldlM t.step s = .ok p := bind_eq_ok_iff

theorem resolve_of_folders (hhere : t'.here = t.here) (hf : t.KeepsFolders t')
    (h : t.resolve root = .ok p) : t'.resolve root = .ok p := by
  obtain ⟨s, hs, h⟩ := resolve_eq_ok_iff.1 h
  have hstart : t'.start root = t.start root := by rw [start, start, hhere]
  exact resolve_eq_ok_iff.2 ⟨s, hstart.trans hs, foldlM_step_of_folders hf h⟩

theorem nodeAt_eq_ok_iff {n : Node} :
    t.nodeAt root = .ok (p, n) ↔ t.resolve root = .ok p ∧ t.node? p = some n := by
  rw [nodeAt, bind_eq_ok_iff]
  constructor
  · rintro ⟨q, hq, h⟩
    split at h
    · rename_i m hm
      cases h
      exact ⟨hq, hm⟩
    · cases h
  · rintro ⟨hq, hn⟩
    refine ⟨p, hq, ?_⟩
    simp only [hn]
    rfl

theorem nodeAt_of_none (hr : t.resolve root = .ok p) (hn : t.node? p = none) :
    t.nodeAt root = .error .missing := by
  rw [nodeAt, hr]
  refine (pure_bind _ _).trans ?_
  simp only [hn]
  rfl

/-! ## Below a folder -/

theorem start_below (h : t.start root = .ok s) (hn : ∀ name ∈ names, IsName name) :
    t.start (root.below names) =
      if pathLimit ≤ (root.below names).text.utf8ByteSize then .error .nameTooLong else .ok s := by
  rw [start] at h ⊢
  split at h
  · cases h
  rename_i hzero
  split at h
  · cases h
  have hnames : ¬(root.below names).parts.any (·.toList.contains (Char.ofNat 0)) = true := by
    intro hany
    rw [Path.below, List.any_append, Bool.or_eq_true] at hany
    rcases hany with hany | hany
    · exact hzero hany
    · obtain ⟨name, hname, hc⟩ := List.any_eq_true.1 hany
      exact ((hn name hname).plain _ (by simpa using hc)).2 rfl
  rw [if_neg hnames, ← h]
  rfl

theorem resolve_below (h : t.resolve root = .ok p) (hn : ∀ name ∈ names, IsName name)
    (hl : (root.below names).text.utf8ByteSize < pathLimit) :
    t.resolve (root.below names) = names.foldlM t.step p := by
  obtain ⟨s, hs, h⟩ := resolve_eq_ok_iff.1 h
  rw [resolve, start_below hs hn, if_neg (Nat.not_le.2 hl)]
  show (root.parts ++ names).foldlM t.step s = _
  rw [List.foldlM_append, h]
  rfl

/-- Every place on the way to a folder is a folder. -/
theorem node?_of_foldlM_step (h : parts.foldlM t.step s = .ok p) (hp : t.node? p = some .folder) :
    t.node? s = some .folder := by
  cases parts with
  | nil =>
    cases h
    exact hp
  | cons name parts =>
    rw [List.foldlM_cons, bind_eq_ok_iff] at h
    obtain ⟨q, hq, -⟩ := h
    exact node?_of_step hq

theorem missing_append (h : parts.foldlM t.step s = .ok p) (hp : t.node? p = some .folder)
    (names : List String) : t.missing s (parts ++ names) = t.missing p names := by
  induction parts generalizing s with
  | nil =>
    cases h
    rfl
  | cons name parts ih =>
    rw [List.foldlM_cons, bind_eq_ok_iff] at h
    obtain ⟨q, hq, h⟩ := h
    rw [List.cons_append, missing, hq]
    simp only [node?_of_foldlM_step h hp, Option.isNone_some, Bool.false_eq_true, if_false]
    exact ih h

theorem foldersFrom_append (h : parts.foldlM t.step s = .ok p) (hp : t.node? p = some .folder)
    (names : List String) : t.foldersFrom s (parts ++ names) = t.foldersFrom p names := by
  induction parts generalizing s with
  | nil =>
    cases h
    rfl
  | cons name parts ih =>
    rw [List.foldlM_cons, bind_eq_ok_iff] at h
    obtain ⟨q, hq, h⟩ := h
    rw [List.cons_append, foldersFrom, hq]
    simp only [node?_of_foldlM_step h hp, Option.isNone_some, Bool.false_eq_true, if_false]
    exact ih h

/-- The tree with a folder where nothing stands. -/
def withFolder (t : Tree) (q : Place) : Tree := if (t.node? q).isNone then t.put q .folder else t

theorem ensureFolders_below (h : t.resolve root = .ok p) (hp : t.node? p = some .folder)
    (hn : IsName name) (hl : name.utf8ByteSize ≤ nameLimit)
    (hq : t.node? (p ++ [name]) = none ∨ t.node? (p ++ [name]) = some .folder)
    (ht : (root.below [name]).text.utf8ByteSize < pathLimit) :
    t.ensureFolders (root.below [name]) = (.ok (), t.withFolder (p ++ [name])) := by
  obtain ⟨s, hs, h⟩ := resolve_eq_ok_iff.1 h
  have hstep := step_folder hp hn hl
  have hmissing : ¬depthLimit < t.missing s (root.below [name]).parts := by
    rw [Path.below, missing_append h hp, missing, hstep]
    simp only [List.length_nil, missing]
    split <;> decide
  have hstart := start_below hs fun x hx => List.mem_singleton.1 hx ▸ hn
  rw [ensureFolders, hstart, if_neg (Nat.not_le.2 ht)]
  simp only [if_neg hmissing]
  rw [Path.below, foldersFrom_append h hp, foldersFrom, hstep]
  show foldersFrom (t.withFolder (p ++ [name])) (p ++ [name]) [] = _
  have hfolder : (t.withFolder (p ++ [name])).node? (p ++ [name]) = some .folder := by
    rcases hq with hq | hq
    · rw [withFolder, hq, Option.isNone_none, if_pos rfl, node?_put t _ _ _ (by simp), if_pos rfl]
    · rw [withFolder, hq, Option.isNone_some, if_neg Bool.false_ne_true, hq]
  rw [foldersFrom, hfolder]

end Tree
end PETriage.Files
