import Mathlib.Data.List.Dedup
import Mathlib.Data.List.Perm.Basic
import PETriage.Cache.Memory
import PETriage.Proofs.Cache.Writing
import PETriage.Proofs.Report.Essential
import PETriage.Proofs.Report.Normalized

/-!
# The cache on disk against the cache in memory

A tree of files and the entries of a cache in memory match when each entry stands at its place and
nothing else stands below the root. Every call keeps that so and is answered alike by both caches.
-/
namespace PETriage

namespace Keyed

variable {κ : Type} [DecidableEq κ] {o : Keyed κ} {key : κ} {v : Value}

theorem get?_eq_none_iff : o.get? key = none ↔ key ∉ o.map Prod.fst := by
  induction o with
  | nil => simp [get?]
  | cons f o ih =>
    obtain ⟨k, w⟩ := f
    rw [get?, List.map_cons, List.mem_cons, not_or]
    split
    · rename_i h
      simp [h]
    · rename_i h
      rw [ih]
      simp [Ne.symm h]

theorem mem_keys_iff : key ∈ o.map Prod.fst ↔ ∃ v, o.get? key = some v := by
  rw [← Option.ne_none_iff_exists', Ne, get?_eq_none_iff, not_not]

theorem keys_put (o : Keyed κ) (key : κ) (v : Value) : (o.put key v).map Prod.fst =
    if key ∈ o.map Prod.fst then o.map Prod.fst else o.map Prod.fst ++ [key] := by
  induction o with
  | nil => rfl
  | cons f o ih =>
    obtain ⟨k, w⟩ := f
    rw [put]
    by_cases h : k = key
    · simp [h]
    · rw [if_neg h, List.map_cons, ih]
      by_cases hmem : key ∈ o.map Prod.fst
      · simp only [List.map_cons, List.mem_cons, hmem, or_true, if_true]
      · simp only [List.map_cons, List.mem_cons, hmem, Ne.symm h, or_false, if_false,
          List.cons_append]

theorem nodup_put (h : (o.map Prod.fst).Nodup) (key : κ) (v : Value) :
    ((o.put key v).map Prod.fst).Nodup := by
  rw [keys_put]
  split
  · exact h
  · rename_i hmem
    exact List.nodup_append.2 ⟨h, List.nodup_singleton key, fun a ha b hb => by
      rw [List.mem_singleton.1 hb]
      rintro rfl
      exact hmem ha⟩

end Keyed

namespace Cache

open Report (Analysis)
open Files (Path Place Node Tree)

/-! ## Calls -/

inductive Call
  | get (key : String)
  | put (key : String) (a : Analysis)
  | clear

inductive Reply
  | found (r : Except String (Option Analysis))
  | stored (r : Except PutFault Unit)
  | removed (count : Nat)

def Reply.Succeeded : Reply → Prop
  | found r => ∃ a, r = .ok a
  | stored r => r = .ok ()
  | removed _ => True

/-- The answers to calls one after the other. -/
def answers {σ : Type} (answer : σ → Call → Reply × σ) : σ → List Call → List Reply
  | _, [] => []
  | s, call :: calls => (answer s call).1 :: answers answer (answer s call).2 calls

/-- There may be room for only so many calls to copy the payload of what is found. -/
def Disk.answer (root : Path) (room : Option Nat) (t : Tree) : Call → Reply × Tree
  | .get key =>
    let (r, t) := (Disk.cache root room).get key t
    (.found r, t)
  | .put key a =>
    let (r, t) := (Disk.cache root room).put key a t
    (.stored r, t)
  | .clear =>
    let (n, t) := Disk.clear root t
    (.removed n, t)

/-- The cache in memory under keys in lower case. Clearing it counts its keys and leaves none. -/
def Memory.answer (room : Option Nat) (entries : Memory.Entries) : Call → Reply × Memory.Entries
  | .get key =>
    let (r, entries) := (Memory.cache room).get (Disk.normalKey key) entries
    (.found r, entries)
  | .put key a =>
    let (r, entries) := (Memory.cache room).put (Disk.normalKey key) a entries
    (.stored r, entries)
  | .clear => (.removed (entries.map Prod.fst).dedup.length, [])

/-- Keys are usable, and what is put can be stored. -/
def Call.Admissible (root : Path) : Call → Prop
  | get key => Disk.Usable root key
  | put key a => Disk.Usable root key ∧ a.Storable
  | clear => True

namespace Disk

variable {root : Path} {t₀ t : Tree} {p q r rest : Place} {m : Memory.Entries} {key : String}
  {v : Value} {n : Node} {a : Analysis} {b : ByteArray} {room : Option Nat}

/-- What may stand below the root: folders, and the files of entries in them. -/
inductive Stands (m : Memory.Entries) : Place → Node → Prop
  | folder (name : String) : Stands m [name] .folder
  | entry {key : String} {v : Value} (b : ByteArray) (h : m.get? key = some v) :
    Stands m [folderName key, entryName key] (.file b)

theorem Stands.inv (h : Stands m rest n) : (∃ name, rest = [name] ∧ n = .folder) ∨
    ∃ key v b, m.get? key = some v ∧ rest = [folderName key, entryName key] ∧ n = .file b := by
  cases h with
  | folder name => exact .inl ⟨name, rfl, rfl⟩
  | @entry key v b h => exact .inr ⟨key, v, b, h, rfl, rfl⟩

/-- The tree holds the entries below the place `p`, and has the folders of the tree before. -/
structure Matches (t₀ : Tree) (p : Place) (t : Tree) (m : Memory.Entries) : Prop where
  here : t.here = t₀.here
  folders : t₀.KeepsFolders t
  tidy : t.Tidy p
  stands : ∀ rest n, rest ≠ [] → t.node? (p ++ rest) = some n → Stands m rest n
  entry : ∀ key v, m.get? key = some v → t.node? (folderPlace p key) = some .folder ∧
    ∃ b, t.node? (entryPlace p key) = some (.file b) ∧ entryValue b = .ok (wrap v)
  keys : (m.map Prod.fst).Nodup
  essential : ∀ key v, m.get? key = some v → ∃ a : Analysis, v = a.essential

/-- The root is a folder with nothing below it. -/
structure EmptyRoot (t₀ : Tree) (root : Path) (p : Place) : Prop where
  node : t₀.nodeAt root = .ok (p, .folder)
  empty : t₀.under p = []

theorem EmptyRoot.matches_nil (h : EmptyRoot t₀ root p) : Matches t₀ p t₀ [] where
  here := rfl
  folders := fun _ hq => hq
  tidy := Tree.tidy_of_under_nil h.empty
  stands := by
    intro rest n hne hn
    rw [Tree.node?_of_under_nil h.empty hne] at hn
    cases hn
  entry := nofun
  keys := List.nodup_nil
  essential := nofun

/-- Before the first call there was no folder below the root. -/
theorem EmptyRoot.not_folder (h : EmptyRoot t₀ root p) (hne : rest ≠ []) :
    t₀.node? (p ++ rest) ≠ some .folder := by
  rw [Tree.node?_of_under_nil h.empty hne]
  nofun

namespace Matches

theorem resolve (hm : Matches t₀ p t m) (h : EmptyRoot t₀ root p) :
    t.resolve root = .ok p ∧ t.node? p = some .folder := by
  obtain ⟨hroot, hp⟩ := Tree.nodeAt_eq_ok_iff.1 h.node
  exact ⟨Tree.resolve_of_folders hm.here hm.folders hroot, hm.folders p hp⟩

theorem folder_cases (hm : Matches t₀ p t m) (key : String) :
    t.node? (folderPlace p key) = none ∨ t.node? (folderPlace p key) = some .folder := by
  cases hn : t.node? (folderPlace p key) with
  | none => exact .inl rfl
  | some n =>
    rcases (hm.stands _ _ (List.cons_ne_nil _ _) hn).inv with ⟨_, -, rfl⟩ | ⟨_, _, _, -, hr, -⟩
    · exact .inr rfl
    · exact absurd (List.cons.inj hr).2.symm (List.cons_ne_nil _ _)

/-- A file in a folder below the root is the file of an entry. -/
theorem exists_entry_of_node? {folder name : String} (hm : Matches t₀ p t m)
    (hn : t.node? (p ++ [folder, name]) = some n) :
    ∃ key v b, m.get? key = some v ∧ name = entryName key ∧ n = .file b := by
  rcases (hm.stands _ _ (List.cons_ne_nil _ _) hn).inv with ⟨_, hr, -⟩ | ⟨key, v, b, h, hr, hb⟩
  · exact absurd (List.cons.inj hr).2 (List.cons_ne_nil _ _)
  · exact ⟨key, v, b, h, (List.cons.inj (List.cons.inj hr).2).1, hb⟩

theorem temporary_none (hm : Matches t₀ p t m) (key : String) :
    t.node? (temporaryPlace p key) = none := by
  cases hn : t.node? (temporaryPlace p key) with
  | none => rfl
  | some n =>
    obtain ⟨other, _, _, -, hname, -⟩ := hm.exists_entry_of_node? hn
    exact absurd hname (temporary_ne_entryName key other)

theorem entry_not_folder (hm : Matches t₀ p t m) (key : String) :
    t.node? (entryPlace p key) ≠ some .folder := by
  intro hn
  obtain ⟨_, _, _, -, -, hb⟩ := hm.exists_entry_of_node? hn
  cases hb

theorem entry_none (hm : Matches t₀ p t m) (h : m.get? key = none) :
    t.node? (entryPlace p key) = none := by
  cases hn : t.node? (entryPlace p key) with
  | none => rfl
  | some n =>
    obtain ⟨other, v, _, hv, hname, -⟩ := hm.exists_entry_of_node? hn
    rw [← entryName_injective hname, h] at hv
    cases hv

/-! ## Getting -/

theorem nodeAt_of_some (hm : Matches t₀ p t m) (h : EmptyRoot t₀ root p) (hf : Fits root key)
    (hv : m.get? key = some v) :
    ∃ b, t.nodeAt (root.below [folderName key, entryName key]) =
      .ok (entryPlace p key, .file b) ∧ entryValue b = .ok (wrap v) := by
  obtain ⟨hroot, hp⟩ := hm.resolve h
  obtain ⟨hfolder, b, hnode, hb⟩ := hm.entry key v hv
  have hready : t.Ready root p (folderName key) := ⟨hroot, hp, hfolder⟩
  have hresolve := hready.resolve (isName_folderName hf.letters) (isName_entryName hf.letters)
    hf.folder hf.entry hf.entryPath
  exact ⟨b, Tree.nodeAt_eq_ok_iff.2 ⟨hresolve, hnode⟩, hb⟩

theorem nodeAt_of_none (hm : Matches t₀ p t m) (h : EmptyRoot t₀ root p) (hf : Fits root key)
    (hv : m.get? key = none) :
    t.nodeAt (root.below [folderName key, entryName key]) = .error .missing := by
  obtain ⟨hroot, hp⟩ := hm.resolve h
  have hnames : ∀ s ∈ [folderName key, entryName key], Files.IsName s :=
    List.forall_mem_cons.2 ⟨isName_folderName hf.letters,
      List.forall_mem_singleton.2 (isName_entryName hf.letters)⟩
  have hstep : t.step p (folderName key) = .ok (folderPlace p key) :=
    Tree.step_folder hp (isName_folderName hf.letters) hf.folder
  rcases hm.folder_cases key with hfolder | hfolder
  · have hresolve : t.resolve (root.below [folderName key, entryName key]) = .error .missing := by
      rw [Tree.resolve_below hroot hnames hf.entryPath, List.foldlM_cons, hstep]
      show t.step (folderPlace p key) (entryName key) >>= _ = _
      rw [Tree.step_none hfolder]
      rfl
    rw [Tree.nodeAt, hresolve]
    rfl
  · have hready : t.Ready root p (folderName key) := ⟨hroot, hp, hfolder⟩
    have hresolve := hready.resolve (isName_folderName hf.letters) (isName_entryName hf.letters)
      hf.folder hf.entry hf.entryPath
    exact Tree.nodeAt_of_none hresolve (hm.entry_none hv)

theorem get_of_some (hm : Matches t₀ p t m) (h : EmptyRoot t₀ root p)
    (hf : Fits root (normalKey key)) (hv : m.get? (normalKey key) = some v) :
    get root t key room = (((Analysis.ofValue v room).map some).mapError .unnormalized, t) := by
  obtain ⟨b, hnode, hb⟩ := hm.nodeAt_of_some h hf hv
  obtain ⟨a, rfl⟩ := hm.essential _ _ hv
  rw [get, entryPath_eq root hf.letters, getAt, Tree.hasNode, Tree.contents, hnode]
  simp only [Tree.answered, bind, Except.bind, pure, Except.pure, hb, currentResult?_wrap]
  rfl

theorem get_of_none (hm : Matches t₀ p t m) (h : EmptyRoot t₀ root p)
    (hf : Fits root (normalKey key)) (hv : m.get? (normalKey key) = none) :
    get root t key room = (.ok none, t) := by
  rw [get, entryPath_eq root hf.letters, getAt, Tree.hasNode, hm.nodeAt_of_none h hf hv]
  rfl

theorem answer_get (hm : Matches t₀ p t m) (h : EmptyRoot t₀ root p) (hu : Usable root key) :
    ∃ found, Disk.answer root room t (.get key) = (.found (.ok found), t) ∧
      Memory.answer room m (.get key) = (.found (.ok found), m) := by
  cases hv : m.get? (normalKey key) with
  | none =>
    refine ⟨none, ?_, ?_⟩
    · simp only [Disk.answer, Disk.cache, hm.get_of_none h hu.fits hv]
      rfl
    · simp only [Memory.answer, Memory.cache, Memory.lookup, hv]
      rfl
  | some v =>
    obtain ⟨a, rfl⟩ := hm.essential _ _ hv
    obtain ⟨found, hfound⟩ := Report.exists_ofValue_essential a
    refine ⟨some found, ?_, ?_⟩
    · simp only [Disk.answer, Disk.cache, hm.get_of_some h hu.fits hv, Report.ofValue_essential_eq,
        hfound]
      rfl
    · simp only [Memory.answer, Memory.cache, Memory.lookup, hv, Report.ofValue_essential_eq,
        hfound]
      rfl

/-! ## Putting -/

theorem put (hm : Matches t₀ p t m) (h : EmptyRoot t₀ root p)
    (hb : entryValue b = .ok (wrap a.essential)) :
    Matches t₀ p (written t p key b) (Keyed.put m key a.essential) := by
  have hnode := node?_written (b := b) (hm.folder_cases key) (hm.temporary_none key)
  have hget := Keyed.get?_put m key
  constructor
  case here => exact (here_written t p key b).trans hm.here
  case tidy => exact tidy_written hm.tidy
  case keys => exact Keyed.nodup_put hm.keys key _
  case folders =>
    intro q hq
    rw [hnode, if_neg, if_neg]
    · exact hm.folders q hq
    · rintro rfl
      exact h.not_folder (List.cons_ne_nil _ _) hq
    · rintro rfl
      exact h.not_folder (List.cons_ne_nil _ _) hq
  case essential =>
    intro other v hv
    rw [hget] at hv
    split at hv
    · cases hv
      exact ⟨a, rfl⟩
    · exact hm.essential other v hv
  case entry =>
    intro other v hv
    rw [hnode, hnode, if_neg (folderPlace_ne_entryPlace p other key),
      if_neg (folderPlace_ne_entryPlace p key other).symm]
    rw [hget] at hv
    split at hv
    · rename_i hkey
      subst hkey
      cases hv
      exact ⟨if_pos rfl, b, if_pos rfl, hb⟩
    · rename_i hkey
      obtain ⟨hfolder, hentry⟩ := hm.entry other v hv
      rw [if_neg fun hplace => hkey (entryPlace_injective hplace), hfolder, ite_self]
      exact ⟨rfl, hentry⟩
  case stands =>
    intro rest n hne hn
    rw [hnode] at hn
    split at hn
    · rename_i hplace
      cases hn
      rw [List.append_cancel_left hplace]
      exact .entry b ((hget key _).trans (if_pos rfl))
    split at hn
    · rename_i hplace
      cases hn
      rw [List.append_cancel_left hplace]
      exact .folder _
    · rename_i hplace _
      rcases (hm.stands rest n hne hn).inv with ⟨name, rfl, rfl⟩ | ⟨other, v, c, hv, rfl, rfl⟩
      · exact .folder name
      · have hother : other ≠ key := by
          rintro rfl
          exact hplace rfl
        exact .entry c ((hget other _).trans ((if_neg hother).trans hv))

theorem answer_put (hm : Matches t₀ p t m) (h : EmptyRoot t₀ root p) (hu : Usable root key)
    (hs : a.Storable) :
    ∃ t', Disk.answer root room t (.put key a) = (.stored (.ok ()), t') ∧
      Memory.answer room m (.put key a) =
        (.stored (.ok ()), Keyed.put m (normalKey key) a.essential) ∧
      Matches t₀ p t' (Keyed.put m (normalKey key) a.essential) := by
  obtain ⟨-, b, hb, hread⟩ := wrapped_readsBack hs
  have hf := hu.fits
  obtain ⟨hroot, hp⟩ := hm.resolve h
  have hput := putAt_below hroot hp hf (hm.folder_cases _) (hm.temporary_none _)
    (hm.entry_not_folder _) hb
  refine ⟨written t p (normalKey key) b, ?_, rfl, hm.put h hread⟩
  simp only [Disk.answer, Disk.cache, Disk.put, entryPath_eq root hf.letters, hput]
  rfl

end Matches

/-! ## Clearing -/

/-- The place of a file that is taken for an entry. -/
def clearedPlace? (p : Place) : Place × Node → Option Place := fun (rest, n) =>
  match rest, n with
  | [folder, name], .file _ => if isEntryName name then some (p ++ [folder, name]) else none
  | _, _ => none

theorem clear_of_nodeAt (h : t.nodeAt root = .ok (p, .folder)) : clear root t =
    (((t.under p).filterMap (clearedPlace? p)).length,
      ((t.under p).filterMap (clearedPlace? p)).foldl Tree.without t) := by
  rw [clear, h]
  rfl

theorem clearedPlace?_eq_some (h : clearedPlace? p (rest, n) = some q) : q = p ++ rest := by
  simp only [clearedPlace?] at h
  split at h
  · split at h
    · exact (Option.some.inj h).symm
    · cases h
  · cases h

theorem clearedPlace?_entry (p : Place) (key : String) (b : ByteArray) :
    clearedPlace? p ([folderName key, entryName key], .file b) = some (entryPlace p key) := by
  simp only [clearedPlace?, isEntryName_entryName, if_true]
  rfl

theorem node?_foldl_without {places : List Place} (h : ∀ q ∈ places, q ≠ []) (t : Tree)
    (r : Place) :
    (places.foldl Tree.without t).node? r = if r ∈ places then none else t.node? r := by
  induction places generalizing t with
  | nil => simp
  | cons q places ih =>
    rw [List.forall_mem_cons] at h
    rw [List.foldl_cons, ih h.2, Tree.node?_without t q r h.1]
    by_cases hq : r = q
    · simp [hq]
    · simp [hq]

theorem here_foldl_without (places : List Place) (t : Tree) :
    (places.foldl Tree.without t).here = t.here := by
  induction places generalizing t with
  | nil => rfl
  | cons q places ih => exact ih (t.without q)

theorem tidy_foldl_without (places : List Place) (h : t.Tidy p) :
    (places.foldl Tree.without t).Tidy p := by
  induction places generalizing t with
  | nil => exact h
  | cons q places ih => exact ih (h.without q)

namespace Matches

theorem mem_cleared_iff (hm : Matches t₀ p t m) :
    q ∈ (t.under p).filterMap (clearedPlace? p) ↔ q ∈ (m.map Prod.fst).map (entryPlace p) := by
  rw [List.mem_filterMap, List.mem_map]
  constructor
  · rintro ⟨⟨rest, n⟩, hmem, hq⟩
    have hplace := clearedPlace?_eq_some hq
    have hnode := hm.tidy.node?_of_mem hmem
    have hne := (Tree.mem_under_iff.1 hmem).1
    rcases (hm.stands rest n hne hnode).inv with ⟨name, rfl, rfl⟩ | ⟨key, v, b, hv, rfl, rfl⟩
    · cases hq
    · exact ⟨key, Keyed.mem_keys_iff.2 ⟨v, hv⟩, hplace.symm⟩
  · rintro ⟨key, hkey, rfl⟩
    obtain ⟨v, hv⟩ := Keyed.mem_keys_iff.1 hkey
    obtain ⟨-, b, hnode, -⟩ := hm.entry key v hv
    exact ⟨_, Tree.mem_under_of_node? (List.cons_ne_nil _ _) hnode, clearedPlace?_entry p key b⟩

theorem length_cleared (hm : Matches t₀ p t m) :
    ((t.under p).filterMap (clearedPlace? p)).length = (m.map Prod.fst).dedup.length := by
  have hlisted : ((t.under p).filterMap (clearedPlace? p)).Nodup := by
    have hplaces := List.pairwise_map.1 hm.tidy.nodup
    refine List.Pairwise.filterMap _ ?_ hplaces
    rintro ⟨rest, n⟩ ⟨rest', n'⟩ hne q hq q' hq'
    rw [clearedPlace?_eq_some hq, clearedPlace?_eq_some hq']
    exact fun h => hne (List.append_cancel_left h)
  have hkeys : ((m.map Prod.fst).map (entryPlace p)).Nodup :=
    hm.keys.map fun _ _ h => entryPlace_injective h
  have hperm := (List.perm_ext_iff_of_nodup hlisted hkeys).2 fun q => hm.mem_cleared_iff
  rw [hperm.length_eq, List.length_map, hm.keys.dedup]

theorem answer_clear (hm : Matches t₀ p t m) (h : EmptyRoot t₀ root p) :
    ∃ t', Disk.answer root room t .clear = ((Memory.answer room m .clear).1, t') ∧
      Matches t₀ p t' [] := by
  obtain ⟨hroot, hp⟩ := hm.resolve h
  have hclear := clear_of_nodeAt (Tree.nodeAt_eq_ok_iff.2 ⟨hroot, hp⟩)
  have hplaces : ∀ q ∈ (t.under p).filterMap (clearedPlace? p), q ≠ [] := by
    intro q hq
    obtain ⟨key, -, rfl⟩ := List.mem_map.1 (hm.mem_cleared_iff.1 hq)
    exact entryPlace_ne_nil p key
  have hnode := node?_foldl_without hplaces t
  refine ⟨_, by rw [Disk.answer, hclear, Memory.answer, ← hm.length_cleared], ?_⟩
  constructor
  case here => exact (here_foldl_without _ t).trans hm.here
  case tidy => exact tidy_foldl_without _ hm.tidy
  case keys => exact List.nodup_nil
  case essential =>
    intro key v hv
    cases hv
  case entry =>
    intro key v hv
    cases hv
  case folders =>
    intro q hq
    rw [hnode, if_neg, hm.folders q hq]
    intro hmem
    obtain ⟨key, -, rfl⟩ := List.mem_map.1 (hm.mem_cleared_iff.1 hmem)
    exact h.not_folder (List.cons_ne_nil _ _) hq
  case stands =>
    intro rest n hne hn
    rw [hnode] at hn
    split at hn
    · cases hn
    rename_i hkept
    rcases (hm.stands rest n hne hn).inv with ⟨name, rfl, rfl⟩ | ⟨key, v, b, hv, rfl, rfl⟩
    · exact .folder name
    · have hkey : key ∈ m.map Prod.fst := Keyed.mem_keys_iff.2 ⟨v, hv⟩
      exact absurd (hm.mem_cleared_iff.2 (List.mem_map_of_mem hkey)) hkept

/-! ## Whole runs -/

/-- Each call is answered alike and with success, and the trees and entries after it match. -/
theorem step (hm : Matches t₀ p t m) (h : EmptyRoot t₀ root p) {call : Call}
    (hc : call.Admissible root) :
    (Disk.answer root room t call).1 = (Memory.answer room m call).1 ∧
    (Disk.answer root room t call).1.Succeeded ∧
    Matches t₀ p (Disk.answer root room t call).2 (Memory.answer room m call).2 := by
  cases call with
  | get key =>
    obtain ⟨found, hdisk, hmemory⟩ := hm.answer_get h hc
    rw [hdisk, hmemory]
    exact ⟨rfl, ⟨found, rfl⟩, hm⟩
  | put key a =>
    obtain ⟨t', hdisk, hmemory, hm'⟩ := hm.answer_put h hc.1 hc.2
    rw [hdisk, hmemory]
    exact ⟨rfl, rfl, hm'⟩
  | clear =>
    obtain ⟨t', hdisk, hm'⟩ := hm.answer_clear h
    rw [hdisk]
    exact ⟨rfl, trivial, hm'⟩

theorem run (hm : Matches t₀ p t m) (h : EmptyRoot t₀ root p) {calls : List Call}
    (hc : ∀ call ∈ calls, call.Admissible root) :
    answers (Disk.answer root room) t calls = answers (Memory.answer room) m calls ∧
    ∀ reply ∈ answers (Disk.answer root room) t calls, reply.Succeeded := by
  induction calls generalizing t m with
  | nil => exact ⟨rfl, List.forall_mem_nil _⟩
  | cons call calls ih =>
    rw [List.forall_mem_cons] at hc
    obtain ⟨hsame, hok, hm'⟩ := hm.step h hc.1
    obtain ⟨hrest, hall⟩ := ih hm' hc.2
    rw [answers, answers, hsame, hrest]
    exact ⟨rfl, List.forall_mem_cons.2 ⟨hsame ▸ hok, hrest ▸ hall⟩⟩

end Matches

end Disk

/-- From an empty folder on, the cache on disk answers every run of calls as the cache in memory
does under keys in lower case, and never with a failure. What it stores is read back as the same
wrapper. -/
theorem disk_answers_as_memory {root : Path} {t : Tree} {p : Place}
    (h : Disk.EmptyRoot t root p) (room : Option Nat) (calls : List Call)
    (hc : ∀ call ∈ calls, call.Admissible root) :
    answers (Disk.answer root room) t calls = answers (Memory.answer room) [] calls ∧
    (∀ reply ∈ answers (Disk.answer root room) t calls, reply.Succeeded) ∧
    ∀ a : Analysis, a.Storable →
      (∃ text, Json.compact? (Disk.wrapped a) = .ok text ∧
        Json.read ⟨some Number.decimalDigitLimit, some Disk.depthLimit⟩ text =
          .ok (Disk.wrapped a)) ∧
      ∃ b, Disk.entryBytes a = .ok b ∧ Disk.entryValue b = .ok (Disk.wrapped a) := by
  obtain ⟨hsame, hall⟩ := h.matches_nil.run h hc
  exact ⟨hsame, hall, fun a ha => Disk.wrapped_readsBack ha⟩

/-- A section whose name holds a letter that is escaped as one unit and some that take two. -/
def storedPayload : Fields := [
  ("machine_type", .str "x64"),
  ("sections", .list [.object [
    ("name", .str (String.ofList ['.', Char.ofNat 0xE9, Char.ofNat 0x1F600, Char.ofNat 0xF5800,
      Char.ofNat 0xF5C00])),
    ("raw_size", .int 512)]])]

theorem disk_answers_as_memory_stored : ∃ a : Analysis,
    Report.normalize (.value (.object storedPayload)) = .ok a ∧
    answers (Disk.answer ⟨"/", ["c"]⟩ none) (.ofFolders [["c"]] [])
        [.put "Ab1" a, .get "aB1", .get "ab", .clear, .get "Ab1"] =
      [.stored (.ok ()), .found (.ok (some a.kept)), .found (.ok none), .removed 1,
        .found (.ok none)] := by
  obtain ⟨a, hn, hs⟩ : ∃ a : Analysis,
      Report.normalize (.value (.object storedPayload)) = .ok a ∧ a.Storable :=
    ⟨_, rfl, by decide +kernel⟩
  have hroot : Disk.EmptyRoot (.ofFolders [["c"]] []) ⟨"/", ["c"]⟩ ["c"] := ⟨rfl, rfl⟩
  have husable : ∀ key ∈ ["Ab1", "aB1", "ab"], Disk.Usable ⟨"/", ["c"]⟩ key := by
    decide +kernel
  have hsame := disk_answers_as_memory hroot none
    [.put "Ab1" a, .get "aB1", .get "ab", .clear, .get "Ab1"] (by
      simp only [List.forall_mem_cons]
      exact ⟨⟨husable _ (by decide), hs⟩, husable _ (by decide),
        husable _ (by decide), trivial, husable _ (by decide), List.forall_mem_nil _⟩)
  have hread := Report.ofValue_essential (Report.normalize_canonical (.value storedPayload) hn)
  have hkeys : Disk.normalKey "Ab1" = "ab1" ∧ Disk.normalKey "aB1" = "ab1" ∧
      Disk.normalKey "ab" = "ab" := by decide +kernel
  refine ⟨a, hn, hsame.1.trans ?_⟩
  have hother : "ab1" ≠ "ab" := by decide
  simp only [answers, Memory.answer, Memory.cache, Memory.store, Memory.lookup, hkeys, Keyed.put,
    Keyed.get?]
  simp only [if_true, if_neg hother, hread]
  rfl

end Cache
end PETriage
