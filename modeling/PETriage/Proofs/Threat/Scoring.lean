import Mathlib.Algebra.GroupWithZero.Nat
import Mathlib.Algebra.Order.BigOperators.Group.List
import Mathlib.Algebra.Order.Group.Nat
import Mathlib.Data.List.Forall2
import PETriage.Proofs.Report.Essential
import PETriage.Threat.Indicators

/-!
# How a score is made up

A score is the sum of the weights of the rules that were triggered and of two bonuses, each of
them given once, up to a hundred. It depends on the order of nothing, and whatever is found besides
can only raise it.
-/
namespace PETriage.Threat

open Report (Analysis SectionEntry Import Raw)

variable {a b : Analysis} {s : SectionEntry} {sections : List SectionEntry}
  {hits hits' : List RuleHit} {t u : Assessment}

/-! ## Sections -/

/-- The entropy of the section is a number. -/
def Rated (s : SectionEntry) : Prop := s.entropyValue?.isSome = true

/-- The entropy of the section is a number wherever the score asks for it. -/
def Judgeable (s : SectionEntry) : Prop :=
  s.isPlaceholder = false → s.isWritableExecutable = true → Rated s

def hasEntropy (test : Float → Bool) (s : SectionEntry) : Bool := s.entropyValue?.any test

def isPacked (s : SectionEntry) : Bool :=
  !s.isPlaceholder && s.isWritableExecutable && hasEntropy (· > Statistics.highEntropy) s

theorem isPackedCode_eq_ok_iff {hit : Bool} :
    isPackedCode s = .ok hit ↔ Judgeable s ∧ hit = isPacked s := by
  by_cases hasked : s.isPlaceholder = false ∧ s.isWritableExecutable = true
  · obtain ⟨hp, hw⟩ := hasked
    cases he : s.entropyValue? with
    | none =>
      have hjudged : ¬Judgeable s := by simp [Judgeable, Rated, hp, hw, he]
      refine iff_of_false ?_ fun h => hjudged h.1
      rw [isPackedCode, hp, hw, entropyOf, he]
      nofun
    | some x =>
      have hjudged : Judgeable s := fun _ _ => by rw [Rated, he, Option.isSome_some]
      have hcode : isPackedCode s = .ok (isPacked s) := by
        rw [isPackedCode, isPacked, hasEntropy, entropyOf, hp, hw, he]
        rfl
      rw [hcode, Except.ok.injEq, and_iff_right hjudged, eq_comm]
  · have hjudged : Judgeable s := fun hp hw => absurd ⟨hp, hw⟩ hasked
    have hcode : isPackedCode s = .ok (isPacked s) := by
      rw [isPackedCode, isPacked]
      cases hp : s.isPlaceholder with
      | true => rfl
      | false =>
        rw [Bool.eq_false_iff.2 fun hw => hasked ⟨hp, hw⟩]
        rfl
    rw [hcode, Except.ok.injEq, and_iff_right hjudged, eq_comm]

theorem packedCode_eq_ok_iff {packed : List SectionEntry} : packedCode sections = .ok packed ↔
    (∀ s ∈ sections, Judgeable s) ∧ packed = sections.filter isPacked := by
  induction sections generalizing packed with
  | nil => simp [packedCode, eq_comm]
  | cons s rest ih =>
    simp only [packedCode, bind_eq_ok_iff, isPackedCode_eq_ok_iff, ih, List.forall_mem_cons,
      List.filter_cons]
    constructor
    · rintro ⟨hit, ⟨hs, rfl⟩, others, ⟨hrest, rfl⟩, h⟩
      cases h
      exact ⟨⟨hs, hrest⟩, rfl⟩
    · rintro ⟨⟨hs, hrest⟩, rfl⟩
      exact ⟨_, ⟨hs, rfl⟩, _, ⟨hrest, rfl⟩, rfl⟩

theorem firstByEntropy?_of_rated {test : Float → SectionEntry → Bool}
    (h : ∀ s ∈ sections, Rated s) :
    firstByEntropy? test sections = .ok (sections.find? fun s => hasEntropy (test · s) s) := by
  induction sections with
  | nil => rfl
  | cons s rest ih =>
    rw [List.forall_mem_cons] at h
    obtain ⟨x, hx⟩ := Option.isSome_iff_exists.1 h.1
    have hentropy : entropyOf s = .ok x := by rw [entropyOf, hx]
    have hhas : hasEntropy (test · s) s = test x s := by rw [hasEntropy, hx, Option.any_some]
    rw [firstByEntropy?, List.find?_cons, hhas, ih h.2]
    refine bind_eq_ok_iff.2 ⟨x, hentropy, ?_⟩
    cases test x s <;> rfl

/-! ## What a score is made of -/

/-- A bonus for something that is there, however often. -/
def bonusFor {α : Type} (n : Nat) (found : List α) (test : α → Bool) : Nat :=
  if found.any test then n else 0

theorem bonusFor_le {α : Type} {n : Nat} {found more : List α} {test : α → Bool}
    (h : found ⊆ more) : bonusFor n found test ≤ bonusFor n more test := by
  unfold bonusFor
  split
  · rename_i hany
    obtain ⟨x, hx, hp⟩ := List.any_eq_true.1 hany
    rw [if_pos (List.any_eq_true.2 ⟨x, h hx, hp⟩)]
  · exact Nat.zero_le _

def bonus (a : Analysis) : Nat :=
  bonusFor packedCodeBonus a.sections isPacked +
    bonusFor importBonus (importedFunctions a) isLoaderCall

theorem bonus_le (hs : a.sections ⊆ b.sections)
    (hf : importedFunctions a ⊆ importedFunctions b) : bonus a ≤ bonus b :=
  Nat.add_le_add (bonusFor_le hs) (bonusFor_le hf)

def totalWeight (hits : List RuleHit) : Nat := (hits.map RuleHit.weight).sum

theorem foldl_weight (hits : List RuleHit) (n : Nat) :
    hits.foldl (fun n hit => n + hit.weight) n = totalWeight hits + n := by
  induction hits generalizing n with
  | nil => exact (Nat.zero_add n).symm
  | cons hit hits ih =>
    rw [List.foldl_cons, ih, totalWeight, totalWeight, List.map_cons, List.sum_cons]
    omega

theorem isEmpty_filter {α : Type} (xs : List α) (p : α → Bool) :
    (xs.filter p).isEmpty = !xs.any p := by
  induction xs with
  | nil => rfl
  | cons x xs ih =>
    rw [List.filter_cons, List.any_cons]
    cases p x
    · exact ih
    · rfl

theorem structural_score (h : structural a = .ok t) : t.score = bonus a := by
  simp only [structural, bind_eq_ok_iff, packedCode_eq_ok_iff] at h
  obtain ⟨packed, ⟨-, rfl⟩, h⟩ := h
  cases h
  simp only [bonus, bonusFor, isEmpty_filter, Bool.not_eq_true']
  congr 1
  cases a.sections.any isPacked <;> rfl

theorem score_eq (h : assess (some a) hits = .ok t) :
    t.score = min maxScore (totalWeight hits + bonus a) := by
  obtain ⟨found, hfound, h⟩ := bind_eq_ok_iff.1 h
  cases h
  rw [foldl_weight, structural_score hfound]

/-- There is a score exactly if every entropy that it asks for is a number. -/
theorem succeeds_assess_iff :
    Succeeds (assess (some a) hits) ↔ ∀ s ∈ a.sections, Judgeable s := by
  have hpacked : Succeeds (packedCode a.sections) ↔ ∀ s ∈ a.sections, Judgeable s := by
    simp only [Succeeds, packedCode_eq_ok_iff, exists_and_left, exists_eq, and_true]
  rw [← hpacked, assess, succeeds_bind_pure_iff]
  exact succeeds_bind_pure_iff

/-! ## Other orders, and further findings -/

/-- The same sections, imports and functions of each import in any order. -/
structure Rearranged (a b : Analysis) : Prop where
  sections : a.sections.Perm b.sections
  imports : ∃ is, (a.imports.getD []).Perm is ∧
    List.Forall₂ (fun i j : Import => i.functions.Perm j.functions) is (b.imports.getD [])

/-- Sections, imports and functions of imports are put in between those that are there. -/
structure Grown (a b : Analysis) : Prop where
  sections : a.sections.Sublist b.sections
  imports : List.SublistForall₂ (fun i j : Import => i.functions.Sublist j.functions)
    (a.imports.getD []) (b.imports.getD [])

theorem importedFunctions_subset (h : ∀ i ∈ a.imports.getD [], ∃ j ∈ b.imports.getD [],
    i.functions ⊆ j.functions) : importedFunctions a ⊆ importedFunctions b := by
  intro f hf
  obtain ⟨i, hi, hf⟩ := List.mem_flatMap.1 hf
  obtain ⟨j, hj, hsub⟩ := h i hi
  exact List.mem_flatMap.2 ⟨j, hj, hsub hf⟩

theorem exists_mem_of_sublistForall₂ {α : Type} {R : α → α → Prop} {xs ys : List α}
    (h : List.SublistForall₂ R xs ys) {x : α} (hx : x ∈ xs) : ∃ y ∈ ys, R x y := by
  induction h with
  | nil => cases hx
  | cons hR _ ih =>
    rcases List.mem_cons.1 hx with rfl | hx
    · exact ⟨_, List.mem_cons_self, hR⟩
    · obtain ⟨y, hy, hxy⟩ := ih hx
      exact ⟨y, List.mem_cons_of_mem _ hy, hxy⟩
  | cons_right _ ih =>
    obtain ⟨y, hy, hxy⟩ := ih hx
    exact ⟨y, List.mem_cons_of_mem _ hy, hxy⟩

theorem Grown.bonus_le (h : Grown a b) : bonus a ≤ bonus b := by
  refine Threat.bonus_le h.sections.subset (importedFunctions_subset fun i hi => ?_)
  obtain ⟨j, hj, hsub⟩ := exists_mem_of_sublistForall₂ h.imports hi
  exact ⟨j, hj, hsub.subset⟩

theorem flatMap_perm_of_forall₂ {is js : List Import}
    (h : List.Forall₂ (fun i j : Import => i.functions.Perm j.functions) is js) :
    (is.flatMap (·.functions)).Perm (js.flatMap (·.functions)) := by
  induction h with
  | nil => exact List.Perm.refl _
  | cons hij _ ih =>
    rw [List.flatMap_cons, List.flatMap_cons]
    exact hij.append ih

theorem Rearranged.importedFunctions_perm (h : Rearranged a b) :
    (importedFunctions a).Perm (importedFunctions b) := by
  obtain ⟨is, hperm, hforall⟩ := h.imports
  exact (hperm.flatMap_right _).trans (flatMap_perm_of_forall₂ hforall)

theorem Rearranged.bonus_eq (h : Rearranged a b) : bonus a = bonus b := by
  have hfunctions := h.importedFunctions_perm
  exact Nat.le_antisymm (Threat.bonus_le h.sections.subset hfunctions.subset)
    (Threat.bonus_le h.sections.symm.subset hfunctions.symm.subset)

theorem totalWeight_perm (h : hits.Perm hits') : totalWeight hits = totalWeight hits' :=
  (h.map _).sum_nat

theorem totalWeight_le (h : hits.Sublist hits') : totalWeight hits ≤ totalWeight hits' :=
  (h.map _).sum_le_sum fun _ _ => Nat.zero_le _

/-! ## Indicators -/

theorem indicators_of_rated (h : ∀ s ∈ a.sections, Rated s) : indicators a = .ok (
    (((realSections a).find? (hasEntropy (· > Statistics.highEntropy))).map
      packedIndicator).toList ++
    (if (importedFunctions a).any isInjection then [injectionIndicator] else []) ++
    (((realSections a).find? fun s =>
      hasEntropy (fun x => x < lowEntropy && s.rawSize > lowEntropySize) s).map
      constantIndicator).toList ++
    (if (unusualNames (realSections a)).isEmpty then []
      else [namesIndicator (unusualNames (realSections a))])) := by
  have hreal : ∀ s ∈ realSections a, Rated s := fun s hs => h s (List.mem_of_mem_filter hs)
  simp only [indicators, firstByEntropy?_of_rated hreal]
  rfl

theorem exists_packedIndicator (h : ∀ s ∈ a.sections, Rated s)
    (hp : a.sections.filter isPacked ≠ []) : ∃ found, indicators a = .ok found ∧
      ∃ i ∈ found, i.title = "Possible packed/encrypted content" := by
  obtain ⟨s, hs⟩ := List.exists_mem_of_ne_nil _ hp
  obtain ⟨hmem, hpacked⟩ := List.mem_filter.1 hs
  simp only [isPacked, Bool.and_eq_true] at hpacked
  obtain ⟨⟨hreal, -⟩, hhigh⟩ := hpacked
  have hfound : ((realSections a).find? (hasEntropy (· > Statistics.highEntropy))).isSome = true :=
    List.find?_isSome.2 ⟨s, List.mem_filter.2 ⟨hmem, hreal⟩, hhigh⟩
  obtain ⟨first, hfirst⟩ := Option.isSome_iff_exists.1 hfound
  refine ⟨_, indicators_of_rated h, packedIndicator first, ?_, rfl⟩
  rw [hfirst]
  simp

/-! ## Whole judgements -/

theorem rated_of_normalize {raw : Raw} {room : Option Nat} (hr : raw.Sourced)
    (h : Report.normalize raw room = .ok a) : ∀ s ∈ a.sections, Rated s := fun s hs =>
  ((Report.sized_canonical hr h).sections s hs).isSome_entropyValue?

/-- Every analysis that normalization gives has a score, which is at most a hundred. It is made of
the weights of the rules and a bonus for packed code and one for imports; the same findings in
another order give the same score and level, and further ones never a lower score or level. Packed
code is among the indicators wherever its bonus is given. -/
theorem assess_bounded_monotone {raw : Raw} {room : Option Nat} (hr : raw.Sourced)
    (h : Report.normalize raw room = .ok a) (hits : List RuleHit) :
    ∃ t, assess (some a) hits = .ok t ∧ t.score ≤ 100 ∧
      (∀ b hits', Rearranged a b → hits.Perm hits' → ∃ u, assess (some b) hits' = .ok u ∧
        u.score = t.score ∧ u.level = t.level) ∧
      (∀ b hits', Grown a b → hits.Sublist hits' →
        (Succeeds (assess (some b) hits') ↔ ∀ s ∈ b.sections, Judgeable s) ∧
        ∀ u, assess (some b) hits' = .ok u →
          t.score ≤ u.score ∧ t.level.rank ≤ u.level.rank) ∧
      ∃ packed, packedCode a.sections = .ok packed ∧
        t.score = min 100 ((hits.map RuleHit.weight).sum + (if packed.isEmpty then 0 else 20) +
          if (importedFunctions a).any isLoaderCall then 15 else 0) ∧
        (packed ≠ [] → ∃ found, indicators a = .ok found ∧
          ∃ i ∈ found, i.title = "Possible packed/encrypted content") := by
  have hrated := rated_of_normalize hr h
  have hjudged : ∀ s ∈ a.sections, Judgeable s := fun s hs _ _ => hrated s hs
  obtain ⟨t, ht⟩ : Succeeds (assess (some a) hits) := succeeds_assess_iff.2 hjudged
  have hscore := score_eq ht
  refine ⟨t, ht, hscore ▸ Nat.min_le_left _ _, fun b hits' hb hh => ?_, fun b hits' hb hh => ?_,
    _, packedCode_eq_ok_iff.2 ⟨hjudged, rfl⟩, ?_, exists_packedIndicator hrated⟩
  · have hjudged' : ∀ s ∈ b.sections, Judgeable s :=
      fun s hs => hjudged s (hb.sections.symm.subset hs)
    obtain ⟨u, hu⟩ : Succeeds (assess (some b) hits') := succeeds_assess_iff.2 hjudged'
    have hsame : u.score = t.score := by
      rw [hscore, score_eq hu, totalWeight_perm hh, hb.bonus_eq]
    exact ⟨u, hu, hsame, congrArg Level.ofScore hsame⟩
  · refine ⟨succeeds_assess_iff, fun u hu => ?_⟩
    have hle : t.score ≤ u.score := by
      rw [hscore, score_eq hu]
      exact min_le_min_left _ (Nat.add_le_add (totalWeight_le hh) hb.bonus_le)
    exact ⟨hle, Level.rank_ofScore_le hle⟩
  · rw [hscore, bonus, bonusFor, bonusFor, isEmpty_filter, totalWeight, Nat.add_assoc]
    cases a.sections.any isPacked <;> rfl

/-- A packed section that can be written and run, and an import that starts programs. -/
def dropperPayload : Fields := [
  ("sections", .list [.object [("name", .str "UPX0"), ("entropy", .str "7.25"),
    ("characteristics", .int 0xE0000020)]]),
  ("imports", .list [.object [("module", .str "KERNEL32.dll"),
    ("functions", .list [.str "WinExec"])]])]

/-- A section in front, a function in between and a rule besides take nothing from the score. -/
theorem assess_bounded_monotone_dropper : ∃ a t,
    Report.normalize (.value (.object dropperPayload)) = .ok a ∧ assess (some a) [] = .ok t ∧
    t.score = 35 ∧ (∃ found, indicators a = .ok found ∧
      ∃ i ∈ found, i.title = "Possible packed/encrypted content") ∧
    ∃ u, assess (some { a with
        sections := { name := ".text" } :: a.sections
        imports := some [⟨"KERNEL32.dll", ["Sleep", "WinExec"]⟩] }) [⟨"beacon", "high"⟩] = .ok u ∧
      t.score ≤ u.score ∧ t.level.rank ≤ u.level.rank := by
  obtain ⟨a, h, himports, hlength⟩ : ∃ a,
      Report.normalize (.value (.object dropperPayload)) = .ok a ∧
      a.imports = some [⟨"KERNEL32.dll", ["WinExec"]⟩] ∧
      (packedCode a.sections).toOption.map (·.length) = some 1 :=
    ⟨_, rfl, rfl, by decide +kernel⟩
  have hsource : Raw.Sourced (.value (.object dropperPayload)) := .value _
  obtain ⟨t, ht, -, -, hgrown, packed, hpacked, hscore, hindicator⟩ :=
    assess_bounded_monotone hsource h []
  have hcalls : (importedFunctions a).any isLoaderCall = true := by
    rw [importedFunctions, himports]
    decide +kernel
  have hne : packed ≠ [] := by
    rintro rfl
    rw [hpacked] at hlength
    exact absurd hlength (by decide)
  have hlarger : Grown a { a with
      sections := { name := ".text" } :: a.sections
      imports := some [⟨"KERNEL32.dll", ["Sleep", "WinExec"]⟩] } := by
    refine ⟨List.sublist_cons_self _ _, ?_⟩
    rw [himports]
    exact .cons (List.sublist_cons_self _ _) .nil
  obtain ⟨hsucceeds, hle⟩ := hgrown _ [⟨"beacon", "high"⟩] hlarger (List.nil_sublist _)
  obtain ⟨u, hu⟩ := hsucceeds.2 (List.forall_mem_cons.2
    ⟨fun _ => nofun, fun s hs _ _ => rated_of_normalize hsource h s hs⟩)
  refine ⟨a, t, h, ht, ?_, hindicator hne, u, hu, hle u hu⟩
  rw [hscore, hcalls, List.isEmpty_eq_false_iff.2 hne]
  rfl

end PETriage.Threat
