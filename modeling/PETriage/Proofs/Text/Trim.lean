import Mathlib.Data.List.DropRight
import Mathlib.Data.List.TakeWhile
import PETriage.Text.Blank

/-!
# Blanks and texts

A text is blank when it has no other characters; trimming leaves one that is not blank, or
nothing. What is left has no blanks at its ends, and a text without blanks at its ends is left as
it is.
-/
namespace PETriage.Text

variable {cs : List Char} {s : String}

theorem exists_mem_dropWhile {p : Char → Bool} (h : cs.dropWhile p ≠ []) :
    ∃ c ∈ cs.dropWhile p, p c = false :=
  ⟨_, List.head_mem h, List.head_dropWhile_not p h⟩

theorem dropWhile_of_none {p : Char → Bool} (h : ∀ c ∈ cs, p c = false) : cs.dropWhile p = cs := by
  rw [List.dropWhile_eq_self_iff]
  intro hl
  simp [h _ (List.getElem_mem hl)]

theorem exists_mem_trim (h : trim cs ≠ []) : ∃ c ∈ trim cs, isBlank c = false := by
  rw [trim, ne_eq, List.reverse_eq_nil_iff] at h
  obtain ⟨c, hc, hb⟩ := exists_mem_dropWhile h
  exact ⟨c, List.mem_reverse.2 hc, hb⟩

theorem trim_eq_nil_iff : trim cs = [] ↔ ∀ c ∈ cs, isBlank c = true := by
  constructor
  · intro h
    rw [trim, List.reverse_eq_nil_iff, List.dropWhile_eq_nil_iff] at h
    rw [← List.dropWhile_eq_nil_iff]
    apply Decidable.byContradiction
    intro hn
    obtain ⟨c, hc, hb⟩ := exists_mem_dropWhile hn
    rw [h c (List.mem_reverse.2 hc)] at hb
    cases hb
  · intro h
    rw [trim, List.dropWhile_eq_nil_iff.2 h]
    rfl

/-- A text with no blanks at its ends. -/
structure Trimmed (cs : List Char) : Prop where
  front : ∀ c ∈ cs.head?, isBlank c = false
  back : ∀ c ∈ cs.getLast?, isBlank c = false

theorem trim_eq_rdropWhile (cs : List Char) :
    trim cs = (cs.dropWhile isBlank).rdropWhile isBlank := rfl

theorem trimmed_trim (cs : List Char) : Trimmed (trim cs) where
  front := by
    intro c hc
    obtain ⟨rest, htrim⟩ := List.head?_eq_some_iff.1 hc
    -- what is trimmed off the back leaves the front of what is behind the first blanks
    obtain ⟨after, hdrop⟩ := List.rdropWhile_prefix isBlank (cs.dropWhile isBlank)
    rw [← trim_eq_rdropWhile, htrim] at hdrop
    have hhead := List.head?_dropWhile_not isBlank cs
    rw [← hdrop] at hhead
    exact hhead
  back := by
    intro c hc
    obtain ⟨hne, rfl⟩ := List.mem_getLast?_eq_getLast hc
    exact Bool.eq_false_iff.2 (List.rdropWhile_last_not isBlank _ hne)

theorem trim_subset (cs : List Char) : trim cs ⊆ cs :=
  List.Subset.trans (List.rdropWhile_prefix isBlank _).subset (List.dropWhile_suffix isBlank).subset

theorem trim_of_trimmed (h : Trimmed cs) : trim cs = cs := by
  have hfront : cs.dropWhile isBlank = cs := by
    rw [List.dropWhile_eq_self_iff]
    intro hl
    rw [h.front _ (List.head?_eq_getElem? ▸ List.getElem?_eq_getElem hl)]
    decide
  rw [trim_eq_rdropWhile, hfront, List.rdropWhile_eq_self_iff]
  intro hne
  rw [h.back _ (List.getLast?_eq_getLast_of_ne_nil hne)]
  decide

theorem trim_of_none (h : ∀ c ∈ cs, isBlank c = false) : trim cs = cs :=
  trim_of_trimmed ⟨fun c hc => h c (List.mem_of_mem_head? hc),
    fun c hc => h c (List.mem_of_mem_getLast? hc)⟩

theorem isBlankText_ofString (s : String) : isBlankText s = (trim s.toList).isEmpty := rfl

theorem isBlankText_eq_false_iff : isBlankText s = false ↔ ∃ c ∈ s.toList, isBlank c = false := by
  rw [isBlankText_ofString, List.isEmpty_eq_false_iff, ne_eq, trim_eq_nil_iff]
  simp

theorem isBlankText_of_first {c : Char} (cs : List Char) (hc : isBlank c = false) :
    isBlankText (String.ofList (c :: cs)) = false := by
  rw [isBlankText_eq_false_iff, String.toList_ofList]
  exact ⟨c, List.mem_cons_self, hc⟩

theorem isBlankText_append (t : String) (h : isBlankText s = false) :
    isBlankText (ofString (s ++ t)) = false := by
  rw [isBlankText_eq_false_iff] at h ⊢
  obtain ⟨c, hc, hb⟩ := h
  exact ⟨c, by rw [String.toList_append]; exact List.mem_append_left _ hc, hb⟩

theorem isBlankText_trim (h : trim cs ≠ []) : isBlankText (String.ofList (trim cs)) = false := by
  rw [isBlankText_eq_false_iff, String.toList_ofList]
  exact exists_mem_trim h

end PETriage.Text
