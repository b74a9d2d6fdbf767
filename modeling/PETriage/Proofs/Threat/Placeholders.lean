import PETriage.Proofs.Direct.Front
import PETriage.Proofs.Direct.Parse
import PETriage.Proofs.Image.Names
import PETriage.Report.Normalize
import PETriage.Threat.Indicators

/-!
# Placeholders by their names

Whether an entry stands for something that was not processed is read off its name. No section can
bear the name of a failed one, which is too long for a name in a file; but a bracket in front,
as in the entry for the sections that were left out, is anybody's to choose. A section of such a
name is measured and then left out of every judgement.
-/
namespace PETriage

namespace Direct

open Image (Headers SectionHeader)

variable {config : Config} {b : ByteArray} {request : Request} {r : Result}

theorem parseUnder_measured {limit : Int} (h : parseUnder config limit b request = .ok r)
    {header : SectionHeader} {m : Statistics.Measure} (hm : .measured header m ∈ r.sections) :
    ∃ base, Image.sectionRow b base = .header header := by
  simp only [parseUnder, bind_eq_ok_iff] at h
  obtain ⟨headers, -, h⟩ := h
  cases h
  obtain ⟨i, hi, hmeasured⟩ := List.mem_mapIdx.1 hm
  have hrow := row_of_measured hmeasured
  simp only [Headers.sectionRows, List.getElem_map] at hrow
  exact ⟨_, hrow⟩

/-- A section that was measured has the header of a row of the table. -/
theorem parseGiven_measured {cap : Option Value} (h : parseGiven config cap b request = .ok r)
    {header : SectionHeader} {m : Statistics.Measure} (hm : .measured header m ∈ r.sections) :
    ∃ base, Image.sectionRow b base = .header header := by
  unfold parseGiven at h
  split at h
  · exact parseUnder_measured (mapError_eq_ok_iff.1 h) hm
  · exact parseUnder_measured (mapError_eq_ok_iff.1 h) hm
  · simp only [bind_eq_ok_iff, mapError_eq_ok_iff] at h
    obtain ⟨headers, -, limit, -, h⟩ := h
    exact parseUnder_measured h hm

/-- The section was measured, and its name begins with a bracket. -/
def SectionResult.isBracketed : SectionResult → Bool
  | .measured h _ => h.name.toList.head? == some '['
  | _ => false

/-- The section was measured under a name that does not begin with a bracket. -/
def SectionResult.isShown (s : SectionResult) : Bool := s.error?.isNone && !s.isBracketed

end Direct

namespace Report

open Direct (SectionResult)

variable {config : Config} {cap : Option Value} {b : ByteArray} {request : Direct.Request}
  {r : Direct.Result}

theorem SectionEntry.skipped_isPlaceholder (count : Int) :
    (SectionEntry.skipped count).isPlaceholder = true := by
  have hfirst : (SectionEntry.skipped count).name.head.toList.head? = some '[' := by
    rw [SectionEntry.skipped, Text.head_ofString, String.toList_append, String.toList_append]
    rfl
  rw [SectionEntry.isPlaceholder, hfirst]
  simp

theorem SectionEntry.unprocessed_isPlaceholder : SectionEntry.unprocessed.isPlaceholder = true := by
  decide

/-- The name of a failed section is longer than any in a section table. -/
theorem ne_failedName {header : Image.SectionHeader} {base : Nat}
    (h : Image.sectionRow b base = .header header) : header.name ≠ SectionEntry.failedName := by
  intro he
  have hlength := Image.length_name_le h
  rw [he] at hlength
  exact absurd hlength (by decide)

theorem sectionOfDirect_isPlaceholder (h : Direct.parseGiven config cap b request = .ok r)
    {s : SectionResult} (hs : s ∈ r.sections) :
    (sectionOfDirect s).isPlaceholder = !s.isShown := by
  cases s with
  | measured header m =>
    obtain ⟨base, hrow⟩ := Direct.parseGiven_measured h hs
    have hname : ((header.name : Text) == (SectionEntry.failedName : Text)) = false :=
      beq_eq_false_iff_ne.2 fun he => ne_failedName hrow (Text.ofString_inj.1 he)
    simp only [sectionOfDirect, SectionEntry.isPlaceholder, hname, Text.head_ofString,
      Bool.false_or, SectionResult.isShown, SectionResult.error?, SectionResult.isBracketed,
      Option.isNone_none, Bool.true_and, Bool.not_not]
  | unmeasured header reason => exact SectionEntry.unprocessed_isPlaceholder
  | failed index reason => exact SectionEntry.unprocessed_isPlaceholder

end Report

namespace Threat

open Report (Analysis SectionEntry sectionOfDirect)

/-! ## What takes part in a judgement -/

theorem packedCode_filter (sections : List SectionEntry) :
    packedCode (sections.filter (!·.isPlaceholder)) = packedCode sections := by
  induction sections with
  | nil => rfl
  | cons s rest ih =>
    cases hp : s.isPlaceholder with
    | true =>
      have hskip : isPackedCode s = .ok false := by rw [isPackedCode, hp]; rfl
      rw [List.filter_cons_of_neg (by simp [hp]), ih, packedCode, hskip]
      cases packedCode rest with
      | ok others => rfl
      | error e => rfl
    | false => rw [List.filter_cons_of_pos (by simp [hp]), packedCode, packedCode, ih]

variable (a : Analysis)

theorem realSections_realSections :
    realSections { a with sections := realSections a } = realSections a := by
  simp only [realSections, List.filter_filter, Bool.and_self]

/-- Placeholders have no part in the score. -/
theorem assess_realSections (hits : List RuleHit) :
    assess (some { a with sections := realSections a }) hits = assess (some a) hits := by
  have hstructural : structural { a with sections := realSections a } = structural a := by
    simp only [structural, realSections, packedCode_filter]
    rfl
  simp only [assess, hstructural]

theorem indicators_realSections :
    indicators { a with sections := realSections a } = indicators a := by
  simp only [indicators, realSections_realSections]
  rfl

/-! ## Placeholders of a parsed image -/

variable {config : Config} {cap : Option Value} {b : ByteArray} {request : Direct.Request}
  {r : Direct.Result}

theorem realSections_ofDirect (h : Direct.parseGiven config cap b request = .ok r) :
    realSections (.ofDirect r) = (r.sections.filter (·.isShown)).map sectionOfDirect := by
  have hsentinel : (if r.skipped == 0 then [] else [SectionEntry.skipped r.skipped]).filter
      (!·.isPlaceholder) = [] := by
    split
    · rfl
    · rw [List.filter_cons_of_neg (by simp [SectionEntry.skipped_isPlaceholder])]
      rfl
  have hshown : ∀ s ∈ r.sections,
      ((!·.isPlaceholder) ∘ sectionOfDirect) s = s.isShown := fun s hs => by
    rw [Function.comp, Report.sectionOfDirect_isPlaceholder h hs, Bool.not_not]
  rw [realSections, Analysis.ofDirect, List.filter_append, hsentinel, List.append_nil,
    List.filter_map, List.filter_congr hshown]

theorem isPlaceholder_iff (h : Direct.parseGiven config cap b request = .ok r) {i : Nat}
    {e : SectionEntry} (he : (Analysis.ofDirect r).sections[i]? = some e) :
    e.isPlaceholder = true ↔ i = r.sections.length ∨
      ∃ s, r.sections[i]? = some s ∧ (s.error?.isSome ∨ s.isBracketed) := by
  have hlength : (r.sections.map sectionOfDirect).length = r.sections.length := List.length_map _
  rw [Analysis.ofDirect] at he
  by_cases hi : i < r.sections.length
  · rw [List.getElem?_append_left (by omega), List.getElem?_map, Option.map_eq_some_iff] at he
    obtain ⟨s, hs, rfl⟩ := he
    rw [Report.sectionOfDirect_isPlaceholder h (List.mem_of_getElem? hs),
      Direct.SectionResult.isShown]
    simp only [hs, Nat.ne_of_lt hi, false_or, Option.some.injEq, exists_eq_left', Bool.not_and,
      Bool.not_not, Bool.or_eq_true, Bool.not_eq_true', Option.isNone_eq_false_iff]
  · rw [List.getElem?_append_right (by omega), hlength] at he
    split at he
    · cases he
    · -- past the sections there is one entry, for those that were left out
      have hlast : i = r.sections.length := by
        have hone := (List.getElem?_eq_some_iff.1 he).1
        rw [List.length_singleton] at hone
        omega
      rw [hlast, Nat.sub_self] at he
      cases he
      exact iff_of_true (SectionEntry.skipped_isPlaceholder _) (.inl hlast)

/-- An entry of a parsed image is taken for a placeholder when it stands for a section that failed,
for the sections that were left out, or for one that was measured under a name with a bracket in
front. The score and the indicators are those of the other entries alone, each of which is a
section that was measured. -/
theorem placeholders_by_name (h : Direct.parseGiven config cap b request = .ok r) :
    let a := Analysis.ofDirect r
    let shown := (r.sections.filter (·.isShown)).map sectionOfDirect
    (∀ i e, a.sections[i]? = some e → (e.isPlaceholder = true ↔ i = r.sections.length ∨
      ∃ s, r.sections[i]? = some s ∧ (s.error?.isSome ∨ s.isBracketed))) ∧
    realSections a = shown ∧
    (∀ hits, assess (some a) hits = assess (some { a with sections := shown }) hits) ∧
    indicators a = indicators { a with sections := shown } := by
  intro a shown
  have hreal : realSections a = shown := realSections_ofDirect h
  refine ⟨fun i e he => isPlaceholder_iff h he, hreal, ?_, ?_⟩
  · intro hits
    rw [← hreal, assess_realSections]
  · rw [← hreal, indicators_realSections]

/-- An image of one section, which can be written and run and has a name in brackets. -/
def bracketedImage : ByteArray :=
  Bytes.ofList ([0x4D, 0x5A] ++ List.replicate 58 0 ++ Bytes.unlittle 4 64 ++ Image.signature ++
    Bytes.unlittle 2 0x14C ++ Bytes.unlittle 2 1 ++ List.replicate 16 0 ++
    [0x5B, 0x70, 0x61, 0x63, 0x6B, 0x5D, 0, 0] ++ Bytes.unlittle 4 1 ++ Bytes.unlittle 4 0x1000 ++
    Bytes.unlittle 4 1 ++ Bytes.unlittle 4 128 ++ List.replicate 12 0 ++
    Bytes.unlittle 4 0xE0000020 ++ [0x90])

theorem placeholders_by_name_bracketed : ∃ r, Direct.parseGiven {} none bracketedImage {} = .ok r ∧
    realSections (.ofDirect r) = (r.sections.filter (·.isShown)).map sectionOfDirect := by
  have hok : (Direct.parseGiven {} none bracketedImage {}).toOption.isSome = true := by
    decide +kernel
  cases hr : Direct.parseGiven {} none bracketedImage {} with
  | error e =>
    rw [hr] at hok
    cases hok
  | ok r => exact ⟨r, rfl, (placeholders_by_name hr).2.1⟩

/-- The section is measured and none is left out, and yet no section takes part. -/
theorem bracketed_section_hidden :
    (Direct.parse {} bracketedImage {}).toOption.map (fun r =>
      (r.sections.map (·.error?.isNone), r.skipped,
        (Analysis.ofDirect r).sections.map (·.isPlaceholder),
        (realSections (.ofDirect r)).length)) = some ([true], 0, [true], 0) := by decide +kernel

end Threat
end PETriage
