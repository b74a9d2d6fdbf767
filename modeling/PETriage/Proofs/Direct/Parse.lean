import PETriage.Direct.Parse
import PETriage.Proofs.Image.Decode

/-!
# Results of the direct parser

Whatever its limits are, the parser returns a result only for headers that decode, and one
entry for each row of the section table that it takes.
-/
namespace PETriage.Direct

open Text (isBlankText)
open Image (Headers SectionRow SectionHeader HeaderError)

variable {config : Config} {b : ByteArray} {request : Request} {r : Result}

/-- A section that was measured has the header of a row of the table. -/
def SectionResult.Named : SectionResult → Prop
  | .measured h _ => isBlankText h.name = false
  | _ => True

/-- What a result says about the request and the buffer that it comes from. -/
structure Result.Parsed (b : ByteArray) (fileSize : Option Int) (r : Result) : Prop where
  fileSize : r.fileSize = fileSize.getD b.size
  headers : Headers.decode b = .ok r.headers
  sections : ∀ s ∈ r.sections, s.Named
  imports : r.imports = none ∨ r.imports = some [importHint]

theorem sectionResult_named {whole : Bool} {index : Nat} {row : SectionRow}
    (h : ∀ header, row = .header header → isBlankText header.name = false) :
    (sectionResult config b whole index row).Named := by
  cases row with
  | beyond offset => trivial
  | header header =>
    simp only [sectionResult]
    cases config.measure (sectionSpan b header) whole with
    | ok m => exact h header rfl
    | error reason => trivial

theorem importsOf_eq (headers : Headers) (rows : List SectionRow) :
    importsOf headers rows = none ∨ importsOf headers rows = some [importHint] := by
  unfold importsOf
  split
  · exact .inl rfl
  split
  · exact .inl rfl
  split
  · exact .inr rfl
  · exact .inl rfl

theorem parseUnder_parsed {limit : Int} (h : parseUnder config limit b request = .ok r) :
    r.Parsed b request.fileSize := by
  simp only [parseUnder, bind_eq_ok_iff] at h
  obtain ⟨headers, hd, h⟩ := h
  cases h
  refine ⟨rfl, hd, ?_, ?_⟩
  · intro s hs
    obtain ⟨i, hi, rfl⟩ := List.mem_mapIdx.1 hs
    refine sectionResult_named fun header hrow => ?_
    simp only [Headers.sectionRows, List.getElem_map] at hrow
    exact Image.isBlankText_sectionRow hrow
  · simp only
    split
    · exact .inl rfl
    · exact importsOf_eq headers _

theorem parseGiven_parsed {cap : Option Value} (h : parseGiven config cap b request = .ok r) :
    r.Parsed b request.fileSize := by
  unfold parseGiven at h
  split at h
  · exact parseUnder_parsed (mapError_eq_ok_iff.1 h)
  · exact parseUnder_parsed (mapError_eq_ok_iff.1 h)
  · simp only [bind_eq_ok_iff, mapError_eq_ok_iff] at h
    obtain ⟨headers, -, limit, -, h⟩ := h
    exact parseUnder_parsed h

end PETriage.Direct
