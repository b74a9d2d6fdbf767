import PETriage.Proofs.Field.Encodings
import PETriage.Proofs.Number.Reread
import PETriage.Proofs.Report.ReadBack

/-!
# What is kept of an analysis

The essential part of an analysis is read as an analysis with the same essential part. The
texts of its entropies always read back, since they are counts of millionths up to eight.
-/
namespace PETriage.Report

variable {a : Analysis} {s : SectionEntry}

theorem rereads_entropyField (x : Float) : Number.Rereads 6 (entropyField x) := by
  obtain ⟨negative, c, hx⟩ := exists_parts_finiteOrZero x
  obtain ⟨d, hd, hle⟩ := exists_parts_clampEntropy hx
  have hfield : entropyField x = Number.fixedMagnitude 6 d := Number.fixed_of_parts hd
  have hunits : Number.roundedQuotient (d.ratio.1 * Nat.pow 10 6) d.ratio.2 ≤ 8000000 :=
    Number.roundedQuotient_le (Number.ratio_den_pos d) (by rw [Nat.pow_eq]; omega)
  rw [hfield, Number.fixedMagnitude]
  exact Number.fixed_of_readReal?_pointed (Nat.lt_of_le_of_lt hunits (by decide))

theorem SectionEntry.Canonical.isSome_entropyValue? (h : s.Canonical) :
    s.entropyValue?.isSome = true := by
  obtain ⟨x, hx⟩ := h.entropy
  obtain ⟨y, hy, -⟩ := Option.map_eq_some_iff.1 (rereads_entropyField x)
  rw [entropyValue?, hx, hy, Option.isSome_some]

/-- A section read from what is kept of it. -/
def SectionEntry.kept (s : SectionEntry) : SectionEntry :=
  { s with chiSquare := chiSquareField 0.0, characteristics := 0 }

theorem sectionOf_essentialSection (hc : s.Canonical) :
    sectionOf (Analysis.essentialSection s) = s.kept := by
  have he : Number.Rereads 6 s.entropy := by
    obtain ⟨x, hx⟩ := hc.entropy
    rw [hx]
    exact rereads_entropyField x
  exact sectionOf_of_printed hc he ⟨rfl, rfl, rfl, rfl, rfl, rfl⟩ rfl

theorem sectionsOf_essential {ss : List SectionEntry} (hc : ∀ s ∈ ss, s.Canonical) :
    sectionsOf (.list (ss.map Analysis.essentialSection)) = ss.map SectionEntry.kept := by
  rw [sectionsOf, List.map_map]
  exact List.map_congr_left fun s hs => sectionOf_essentialSection (hc s hs)

/-- The analysis that is read from what is kept of one. -/
def Analysis.kept (a : Analysis) : Analysis where
  fileSize := a.fileSize
  machine := a.machine
  timestamp := a.timestamp
  sections := a.sections.map SectionEntry.kept

/-- What is kept of an analysis can always be read, for no part that can be out of range is. -/
theorem exists_ofValue_essential (a : Analysis) : ∃ r, Analysis.ofValue a.essential = .ok r :=
  ⟨_, rfl⟩

/-- Nothing that is kept has a payload, so it is read whatever room there is for one. -/
theorem ofValue_essential_eq (a : Analysis) (room : Option Nat) :
    Analysis.ofValue a.essential room = Analysis.ofValue a.essential :=
  ofValue_of_copyable fun _ _ => nofun

/-- A size below zero counts as none, and then the size is zero. -/
theorem fileSize_essential (a : Analysis) :
    (Field.fileSize.resolve (.object a.essentialFields) : Int) = a.sized.fileSize := by
  have hsize : Keyed.get? a.essentialFields "file_size" = some (.int a.fileSize) := rfl
  by_cases hn : 0 ≤ a.fileSize
  · rw [sized_of_nonneg hn]
    exact Field.resolve_int _ rfl hsize hn
  · have hnone : Field.fileSize.find? a.essentialFields = none := by
      have hkeys : Field.keys "file_size" [] = ["file_size", "fileSize"] := by decide
      refine Field.findSome?_numericLookups_eq_none ?_
      rw [hkeys, List.forall_mem_cons, List.forall_mem_singleton]
      exact ⟨hsize ▸ .other (if_neg hn) rfl, .absent⟩
    rw [Field.Spec.resolve, hnone, Analysis.sized, Int.max_eq_left (by omega)]
    rfl

theorem ofValue_essential_sized (hc : a.sized.Canonical) :
    Analysis.ofValue a.essential = .ok a.sized.kept := by
  have hmachine : Field.machineType.resolve (.object a.essentialFields) = a.machine :=
    Field.named_resolve _ rfl hc.machine
  have htimestamp : Field.timestamp.resolve (.object a.essentialFields) = a.timestamp :=
    Field.named_resolve _ rfl hc.timestamp
  have hsections : sectionsOf (fieldOrNull a.essentialFields "sections") =
      a.sections.map SectionEntry.kept := sectionsOf_essential hc.sections
  show Analysis.ofPrinted a.essentialFields = _
  simp only [ofPrinted_eq_assemble, Analysis.assemble, hmachine, htimestamp, hsections,
    Option.getD_none, fileSize_essential]
  rfl

theorem ofValue_essential (hc : a.Canonical) : Analysis.ofValue a.essential = .ok a.kept := by
  have hsized := sized_of_nonneg hc.fileSize
  rw [ofValue_essential_sized (hsized.symm ▸ hc), hsized]

theorem essential_kept (a : Analysis) : a.kept.essential = a.essential := by
  have hsame : Analysis.essentialSection ∘ SectionEntry.kept = Analysis.essentialSection := by
    funext s
    simp only [Function.comp_apply, Analysis.essentialSection, SectionEntry.kept]
  rw [Analysis.essential, Analysis.essential, Analysis.essentialFields, Analysis.essentialFields,
    Analysis.kept, List.map_map, hsame]

end PETriage.Report
