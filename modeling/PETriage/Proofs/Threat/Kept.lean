import PETriage.Proofs.Threat.Scoring

/-!
# Judgement of what was kept

What is kept of an analysis has the names, sizes and entropies of its sections, but neither their
flags nor the imports. So every indicator that looks at sections alone is kept as it was, and of the
score only what the rules give.
-/
namespace PETriage.Threat

open Report (Analysis SectionEntry Raw)

variable {a : Analysis} {sections : List SectionEntry} {hits : List RuleHit}

/-! ## Sections without their flags -/

section Fields

variable (s : SectionEntry)

@[simp] theorem name_kept : s.kept.name = s.name := by rw [SectionEntry.kept]

@[simp] theorem entropy_kept : s.kept.entropy = s.entropy := by rw [SectionEntry.kept]

@[simp] theorem rawSize_kept : s.kept.rawSize = s.rawSize := by rw [SectionEntry.kept]

@[simp] theorem characteristics_kept : s.kept.characteristics = 0 := by rw [SectionEntry.kept]

@[simp] theorem isWritableExecutable_kept : s.kept.isWritableExecutable = false := by
  rw [SectionEntry.isWritableExecutable, characteristics_kept]
  decide

@[simp] theorem isPlaceholder_kept : s.kept.isPlaceholder = s.isPlaceholder := by
  rw [SectionEntry.isPlaceholder, SectionEntry.isPlaceholder, name_kept]

@[simp] theorem entropyValue?_kept : s.kept.entropyValue? = s.entropyValue? := by
  rw [SectionEntry.entropyValue?, SectionEntry.entropyValue?, entropy_kept]

@[simp] theorem hasEntropy_kept (test : Float → Bool) :
    hasEntropy test s.kept = hasEntropy test s := by
  rw [hasEntropy, hasEntropy, entropyValue?_kept]

@[simp] theorem isPacked_kept : isPacked s.kept = false := by simp [isPacked]

@[simp] theorem packedIndicator_kept : packedIndicator s.kept = packedIndicator s := by
  simp [packedIndicator]

@[simp] theorem constantIndicator_kept : constantIndicator s.kept = constantIndicator s := by
  simp [constantIndicator]

theorem rated_kept_iff : Rated s.kept ↔ Rated s := by rw [Rated, Rated, entropyValue?_kept]

theorem judgeable_kept : Judgeable s.kept := fun _ => by simp

end Fields

theorem realSections_kept (a : Analysis) :
    realSections a.kept = (realSections a).map SectionEntry.kept := by
  simp only [realSections, Analysis.kept, List.filter_map, Function.comp_def, isPlaceholder_kept]

theorem unusualNames_kept (sections : List SectionEntry) :
    unusualNames (sections.map SectionEntry.kept) = unusualNames sections := by
  simp only [unusualNames, List.map_map, Function.comp_def, name_kept]

theorem rated_kept (h : ∀ s ∈ a.sections, Rated s) : ∀ s ∈ a.kept.sections, Rated s := by
  intro s hs
  obtain ⟨s, hmem, rfl⟩ := List.mem_map.1 hs
  exact (rated_kept_iff s).2 (h s hmem)

/-! ## Indicators -/

/-- An indicator of sections has a title of its own. -/
theorem filter_indicators {packed constant : Option SectionEntry} {names : List Text}
    {injects : Bool} :
    ((packed.map packedIndicator).toList ++ (if injects then [injectionIndicator] else []) ++
      (constant.map constantIndicator).toList ++
      (if names.isEmpty then [] else [namesIndicator names])).filter
        (·.title != "Suspicious API imports") =
    (packed.map packedIndicator).toList ++ [] ++ (constant.map constantIndicator).toList ++
      (if names.isEmpty then [] else [namesIndicator names]) := by
  have hpacked : ∀ s, ((packedIndicator s).title != "Suspicious API imports") = true :=
    fun _ => rfl
  have hconstant : ∀ s, ((constantIndicator s).title != "Suspicious API imports") = true :=
    fun _ => rfl
  have hnames : ∀ ns, ((namesIndicator ns).title != "Suspicious API imports") = true :=
    fun _ => rfl
  have hinjection : (injectionIndicator.title != "Suspicious API imports") = false := by decide
  simp only [List.filter_append]
  congr 1
  · congr 1
    · congr 1
      · cases packed <;> simp [hpacked]
      · cases injects <;> simp [hinjection]
    · cases constant <;> simp [hconstant]
  · cases names.isEmpty <;> simp [hnames]

theorem indicators_kept (h : ∀ s ∈ a.sections, Rated s) : ∃ found, indicators a = .ok found ∧
    indicators a.kept = .ok (found.filter (·.title != "Suspicious API imports")) := by
  refine ⟨_, indicators_of_rated h, ?_⟩
  have himports : importedFunctions a.kept = [] := rfl
  rw [indicators_of_rated (rated_kept h), filter_indicators, realSections_kept, unusualNames_kept,
    himports]
  simp [Function.comp_def]

/-! ## Scores -/

theorem structural_kept (a : Analysis) : structural a.kept = .ok ⟨0, []⟩ := by
  have hnone : a.kept.sections.filter isPacked = [] := by
    refine List.filter_eq_nil_iff.2 fun s hs => ?_
    obtain ⟨s, -, rfl⟩ := List.mem_map.1 hs
    simp
  have hpacked : packedCode a.kept.sections = .ok [] := by
    refine packedCode_eq_ok_iff.2 ⟨fun s hs => ?_, hnone.symm⟩
    obtain ⟨s, -, rfl⟩ := List.mem_map.1 hs
    exact judgeable_kept s
  rw [structural, hpacked]
  rfl

theorem assess_kept (a : Analysis) (hits : List RuleHit) :
    assess (some a.kept) hits = .ok ⟨min maxScore (totalWeight hits), hits.map RuleHit.line⟩ := by
  simp only [assess, structural_kept]
  show Except.ok _ = _
  rw [foldl_weight, Nat.add_zero, List.append_nil]

/-- What is kept of an analysis is read again as an analysis of which the same is kept, with a size
below zero as zero. It has all indicators but the one of imports, and the score of the rules alone,
which is no higher than that of the whole. -/
theorem kept_judged {raw : Raw} {room : Option Nat} (hr : raw.Sourced)
    (h : Report.normalize raw room = .ok a) (room' : Option Nat) :
    ∃ c, Report.normalize (.value a.essential) room' = .ok c ∧
      c.essential = { a with fileSize := max 0 a.fileSize : Analysis }.essential ∧
      (0 ≤ a.fileSize → c.essential = a.essential) ∧
      (c.error = none ∧ c.imports = none ∧ c.resources = none ∧ c.dos = none ∧ c.file = none ∧
        c.optional = none ∧ c.directories = [] ∧ c.payload = none) ∧
      (∃ found, indicators a = .ok found ∧
        indicators c = .ok (found.filter (·.title != "Suspicious API imports"))) ∧
      ∀ hits, ∃ t u, assess (some a) hits = .ok t ∧ assess (some c) hits = .ok u ∧
        u.score = min 100 (hits.map RuleHit.weight).sum ∧ u.score ≤ t.score ∧
        u.details = hits.map RuleHit.line := by
  have hrated := rated_of_normalize hr h
  have hread := (Report.ofValue_essential_eq a room').trans
    (Report.ofValue_essential_sized (Report.sized_canonical hr h))
  have hessential := Report.essential_kept a.sized
  refine ⟨a.sized.kept, hread, hessential, fun hn => ?_, ⟨rfl, rfl, rfl, rfl, rfl, rfl, rfl, rfl⟩,
    indicators_kept hrated, fun hits => ?_⟩
  · rw [hessential, Report.sized_of_nonneg hn]
  · obtain ⟨t, ht⟩ : Succeeds (assess (some a) hits) :=
      succeeds_assess_iff.2 fun s hs _ _ => hrated s hs
    refine ⟨t, _, ht, assess_kept a.sized hits, rfl, ?_, rfl⟩
    rw [score_eq ht]
    exact min_le_min_left _ (Nat.le_add_right _ _)

/-- A packed section and an import are worth 35 besides the rule; what is kept of them, nothing. -/
theorem kept_judged_dropper : ∃ a c, Report.normalize (.value (.object dropperPayload)) = .ok a ∧
    Report.normalize (.value a.essential) = .ok c ∧ c.essential = a.essential ∧ c.imports = none ∧
    ∃ t u, assess (some a) [⟨"beacon", "high"⟩] = .ok t ∧
      assess (some c) [⟨"beacon", "high"⟩] = .ok u ∧ u.score = 30 ∧ u.score ≤ t.score ∧
      u.details = [.ofString "Rule \"beacon\" triggered (high severity)"] := by
  obtain ⟨a, h, hsize⟩ : ∃ a, Report.normalize (.value (.object dropperPayload)) = .ok a ∧
      a.fileSize = 0 := ⟨_, rfl, rfl⟩
  obtain ⟨c, hc, -, hessential, ⟨-, himports, -⟩, -, hscore⟩ := kept_judged (.value _) h none
  obtain ⟨t, u, ht, hu, hsum, hle, hdetails⟩ := hscore [⟨"beacon", "high"⟩]
  exact ⟨a, c, h, hc, hessential hsize.ge, himports, t, u, ht, hu, hsum, hle, hdetails⟩

/-- An empty payload whose file is said to have a size below zero. -/
def sizedBelowZero : Raw :=
  .tagged (.object [("header", .object []), ("sections", .list [])]) (some (-1))

/-- A size below zero is not read back. -/
theorem negative_size_lost : ∃ a c, Report.normalize sizedBelowZero = .ok a ∧
    Report.normalize (.value a.essential) = .ok c ∧ c.essential ≠ a.essential := by
  obtain ⟨a, h, hsize⟩ : ∃ a, Report.normalize sizedBelowZero = .ok a ∧ a.fileSize = -1 :=
    ⟨_, rfl, rfl⟩
  obtain ⟨c, hc, hessential⟩ : ∃ c, Report.normalize (.value a.essential) = .ok c ∧
      c.essential = a.sized.essential :=
    ⟨_, Report.ofValue_essential_sized (Report.sized_canonical (.tagged _ _) h),
      Report.essential_kept _⟩
  refine ⟨a, c, h, hc, fun heq => ?_⟩
  rw [hessential] at heq
  have hfields := (Value.object.inj heq).symm
  have hsame : a.fileSize = max 0 a.fileSize :=
    Value.int.inj (Prod.mk.inj (List.cons.inj hfields).1).2
  rw [hsize] at hsame
  exact absurd hsame (by decide)

end PETriage.Threat
