import Mathlib.Data.List.Nodup
import PETriage.Files.Tree

/-!
# Places below a folder

What a tree lists under a place is what stands at the places below it, each once. Putting a node
below the place, or taking one away, keeps that so.
-/
namespace PETriage.Files.Tree

variable {t : Tree} {p q r rest : Place} {n m : Node}

theorem below?_eq_some_iff : below? p q = some r ↔ q = p ++ r := by
  induction p generalizing q with
  | nil => simp [below?]
  | cons a p ih =>
    cases q with
    | nil => simp [below?]
    | cons b q =>
      rw [below?]
      split
      · rename_i hab
        rw [ih, List.cons_append, List.cons.injEq]
        simp [hab]
      · rename_i hab
        simp [Ne.symm hab]

theorem mem_under_iff :
    (r, n) ∈ t.under p ↔ r ≠ [] ∧ ∃ i ∈ t.items, i.place = p ++ r ∧ i.node = n := by
  rw [under, List.mem_filterMap]
  constructor
  · rintro ⟨i, hi, h⟩
    split at h
    · cases h
    · rename_i rest hne hb
      cases h
      exact ⟨by simpa using hne, i, hi, below?_eq_some_iff.1 hb, rfl⟩
    · cases h
  · rintro ⟨hne, i, hi, hp, rfl⟩
    refine ⟨i, hi, ?_⟩
    rw [below?_eq_some_iff.2 hp]
    cases r with
    | nil => exact absurd rfl hne
    | cons a r => rfl

/-- Each place below is listed once, and its depth is the one that it is looked up with. -/
structure Tidy (t : Tree) (p : Place) : Prop where
  measured : ∀ i ∈ t.items, ∀ r, r ≠ [] → i.place = p ++ r → i.depth = i.place.length
  nodup : ((t.under p).map Prod.fst).Nodup

theorem find?_eq_some {items : List Item} {depth : Nat} (h : find? depth q items = some n) :
    ∃ i ∈ items, i.place = q ∧ i.node = n := by
  induction items with
  | nil => cases h
  | cons i items ih =>
    rw [find?] at h
    split at h
    · rename_i hat
      cases h
      simp only [Item.isAt, Bool.and_eq_true, beq_iff_eq] at hat
      exact ⟨i, List.mem_cons_self, hat.2, rfl⟩
    · obtain ⟨j, hj, h⟩ := ih h
      exact ⟨j, List.mem_cons_of_mem _ hj, h⟩

theorem exists_find?_of_mem {items : List Item} {i : Item} (hi : i ∈ items)
    (hd : i.depth = i.place.length) : ∃ n, find? i.place.length i.place items = some n := by
  induction items with
  | nil => cases hi
  | cons j items ih =>
    rw [find?]
    split
    · exact ⟨_, rfl⟩
    · rename_i hat
      rcases List.mem_cons.1 hi with rfl | hi
      · simp [Item.isAt, hd] at hat
      · exact ih hi

theorem node?_of_ne_nil (h : q ≠ []) : t.node? q = find? q.length q t.items := if_neg h

theorem mem_under_of_node? (hr : r ≠ []) (h : t.node? (p ++ r) = some n) : (r, n) ∈ t.under p := by
  rw [node?_of_ne_nil (by simp [hr])] at h
  obtain ⟨i, hi, hp, hn⟩ := find?_eq_some h
  exact mem_under_iff.2 ⟨hr, i, hi, hp, hn⟩

theorem Tidy.node?_of_mem (ht : t.Tidy p) (h : (r, n) ∈ t.under p) : t.node? (p ++ r) = some n := by
  obtain ⟨hr, i, hi, hp, -⟩ := mem_under_iff.1 h
  obtain ⟨m, hm⟩ := exists_find?_of_mem hi (ht.measured i hi r hr hp)
  have hnode : t.node? (p ++ r) = some m := by
    rw [node?_of_ne_nil (by simp [hr]), ← hp]
    exact hm
  have hmem := mem_under_of_node? hr hnode
  rw [hnode, (Prod.mk.inj (List.inj_on_of_nodup_map ht.nodup hmem h rfl)).2]

theorem node?_of_under_nil (h : t.under p = []) (hr : r ≠ []) : t.node? (p ++ r) = none := by
  cases hn : t.node? (p ++ r) with
  | none => rfl
  | some n =>
    have hmem := mem_under_of_node? hr hn
    rw [h] at hmem
    cases hmem

theorem tidy_of_under_nil (h : t.under p = []) : t.Tidy p where
  measured := by
    intro i hi r hr hp
    have hmem : (r, i.node) ∈ t.under p := mem_under_iff.2 ⟨hr, i, hi, hp, rfl⟩
    rw [h] at hmem
    cases hmem
  nodup := by
    rw [h]
    exact List.nodup_nil

theorem Tidy.without (ht : t.Tidy p) (q : Place) : (t.without q).Tidy p where
  measured := fun i hi => ht.measured i (List.mem_of_mem_filter hi)
  nodup := by
    have hsub : ((t.without q).under p).Sublist (t.under p) :=
      List.Sublist.filterMap _ List.filter_sublist
    exact (hsub.map Prod.fst).nodup ht.nodup

theorem Tidy.put (ht : t.Tidy p) (hr : r ≠ []) (n : Node) : (t.put (p ++ r) n).Tidy p where
  measured := by
    intro i hi s hs hp
    rcases List.mem_cons.1 hi with rfl | hi
    · rfl
    · exact ht.measured i (List.mem_of_mem_filter hi) s hs hp
  nodup := by
    have hunder : (t.put (p ++ r) n).under p = (r, n) :: (t.without (p ++ r)).under p := by
      have hbelow : below? p (p ++ r) = some r := below?_eq_some_iff.2 rfl
      cases r with
      | nil => exact absurd rfl hr
      | cons a r =>
        rw [under, Tree.put, List.filterMap_cons]
        simp only [Item.ofPlace, hbelow]
        rfl
    rw [hunder, List.map_cons, List.nodup_cons]
    refine ⟨?_, (ht.without _).nodup⟩
    intro hmem
    obtain ⟨⟨s, m⟩, hs, rfl⟩ := List.mem_map.1 hmem
    have hnode := (ht.without (p ++ s)).node?_of_mem hs
    rw [node?_without t _ _ (by simp [hr]), if_pos rfl] at hnode
    cases hnode

end PETriage.Files.Tree
