import PETriage.Proofs.Direct.Parse
import PETriage.Proofs.Report.Canonical
import PETriage.Proofs.Report.Room

/-!
# Normalization gives canonical analyses

A result of the direct parser, a payload with the size of its file and a value that is an object
are each turned into an analysis in canonical form.
-/
namespace PETriage.Report

open Text (isBlankText isBlankText_append)

theorem skipped_canonical (count : Int) : (SectionEntry.skipped count).Canonical where
  name := by
    rw [SectionEntry.skipped, String.append_assoc]
    exact isBlankText_append _ rfl
  address := ⟨0, rfl⟩
  virtualSize := Int.le_refl 0
  rawSize := Int.le_refl 0
  entropy := unprocessed_canonical.entropy
  chiSquare := unprocessed_canonical.chiSquare
  characteristics := Int.le_refl 0

theorem sectionOfDirect_canonical {s : Direct.SectionResult} (h : s.Named) :
    (sectionOfDirect s).Canonical := by
  cases s with
  | measured header m =>
    exact {
      name := h
      address := ⟨_, rfl⟩
      virtualSize := Int.natCast_nonneg _
      rawSize := Int.natCast_nonneg _
      entropy := ⟨_, rfl⟩
      chiSquare := ⟨_, rfl⟩
      characteristics := Int.natCast_nonneg _ }
  | unmeasured header reason => exact unprocessed_canonical
  | failed index reason => exact unprocessed_canonical

theorem ofDirect_canonical {b : ByteArray} {fileSize : Option Int} {r : Direct.Result}
    (h : r.Parsed b fileSize) (hs : ∀ n ∈ fileSize, 0 ≤ n) : (Analysis.ofDirect r).Canonical := by
  have hc := Image.decode_canonical h.headers
  exact {
    fileSize := by
      rw [Analysis.ofDirect, h.fileSize]
      cases fileSize with
      | none => exact Int.natCast_nonneg _
      | some n => exact hs n rfl
    machine := hc.file.isBlankText_machine
    timestamp := by
      rw [Analysis.ofDirect, hc.file.timestamp]
      exact Image.isBlankText_timestampText _
    sections := by
      intro s hmem
      rcases List.mem_append.1 hmem with hmem | hmem
      · obtain ⟨found, hfound, rfl⟩ := List.mem_map.1 hmem
        exact sectionOfDirect_canonical (h.sections found hfound)
      · split at hmem
        · cases hmem
        · rw [List.mem_singleton.1 hmem]
          exact skipped_canonical _
    imports := by
      intro is his i hi
      rcases h.imports with hn | hn
      · rw [Analysis.ofDirect, hn] at his
        cases his
      · rw [Analysis.ofDirect, hn] at his
        cases his
        rw [List.mem_singleton.1 hi]
        rfl
    resources := nofun
    dos := by
      rintro h ⟨⟩
      exact hc.dos
    file := by
      rintro h ⟨⟩
      exact hc.file
    optional := hc.optional
    directories := hc.directories
    knownMachine := by
      rintro h ⟨⟩ -
      rfl
    knownTimestamp := by
      rintro h ⟨⟩ -
      rfl
    error := nofun }

/-- What normalization is meant for: results that the direct parser gave, objects handed over
with the size of their file, and objects that say it themselves. -/
inductive Raw.Accepted : Raw → Prop
  | direct {config : Config} {cap : Option Value} {b : ByteArray} {request : Direct.Request}
      {r : Direct.Result} (h : Direct.parseGiven config cap b request = .ok r)
      (hs : ∀ n ∈ request.fileSize, 0 ≤ n) : Accepted (.direct r)
  | tagged (o : Fields) {fileSize : Option Int} (hs : ∀ n ∈ fileSize, 0 ≤ n) :
      Accepted (.tagged (.object o) fileSize)
  | value (o : Fields) : Accepted (.value (.object o))

theorem normalize_canonical {raw : Raw} {room : Option Nat} {a : Analysis} (hr : raw.Accepted)
    (h : normalize raw room = .ok a) : a.Canonical := by
  replace h := (normalize_eq_ok_iff.1 h).2
  cases hr with
  | direct hp hs =>
    cases h
    exact ofDirect_canonical (Direct.parseGiven_parsed hp) hs
  | tagged o hs => exact assemble_canonical h hs
  | value o =>
    have hnone : ∀ n ∈ (none : Option Int), 0 ≤ n := by simp
    simp only [normalize, Analysis.ofValue] at h
    split at h
    · exact assemble_canonical h hnone
    · exact assemble_canonical h hnone

/-! ## Sizes below zero -/

/-- All that normalization makes an analysis of: a result that the direct parser gave, or a value,
alone or with any size that its file is said to have, or an analysis that was made so before. -/
inductive Raw.Sourced : Raw → Prop
  | direct {config : Config} {cap : Option Value} {b : ByteArray} {request : Direct.Request}
      {r : Direct.Result} (h : Direct.parseGiven config cap b request = .ok r) :
      Sourced (.direct r)
  | tagged (v : Value) (fileSize : Option Int) : Sourced (.tagged v fileSize)
  | value (v : Value) : Sourced (.value v)
  | again {raw : Raw} {room : Option Nat} {a : Analysis} (hr : Sourced raw)
      (h : normalize raw room = .ok a) : Sourced (.analysis a)

/-- The analysis with its size, or zero when that is negative. -/
def Analysis.sized (a : Analysis) : Analysis := { a with fileSize := max 0 a.fileSize }

theorem sized_of_nonneg {a : Analysis} (h : 0 ≤ a.fileSize) : a.sized = a := by
  rw [Analysis.sized, Int.max_eq_right h]

theorem assemble_sized {o : Fields} {parts : Parts} {fileSize : Option Int} {a : Analysis}
    (h : Analysis.assemble o parts fileSize = .ok a) :
    Analysis.assemble o parts (some (max 0 a.fileSize)) = .ok a.sized := by
  simp only [Analysis.assemble, bind_eq_ok_iff] at h ⊢
  obtain ⟨imports, hi, resources, hr, optional, ho, h⟩ := h
  cases h
  exact ⟨imports, hi, resources, hr, optional, ho, rfl⟩

theorem sized_canonical_of_assemble {o : Fields} {parts : Parts} {fileSize : Option Int}
    {a : Analysis} (h : Analysis.assemble o parts fileSize = .ok a) : a.sized.Canonical := by
  refine assemble_canonical (assemble_sized h) fun n hn => ?_
  cases hn
  exact Int.le_max_left 0 _

/-- But for a size below zero every analysis is canonical. -/
theorem sized_canonical {raw : Raw} {room : Option Nat} {a : Analysis} (hr : raw.Sourced)
    (h : normalize raw room = .ok a) : a.sized.Canonical := by
  replace h := (normalize_eq_ok_iff.1 h).2
  induction hr generalizing a with
  | again hr hb ih =>
    cases h
    exact ih (normalize_eq_ok_iff.1 hb).2
  | @direct config cap b request r hp =>
    cases h
    have hparsed : Direct.Result.Parsed b (some (max 0 r.fileSize))
        { r with fileSize := max 0 r.fileSize } :=
      { Direct.parseGiven_parsed hp with fileSize := rfl }
    refine ofDirect_canonical hparsed fun n hn => ?_
    cases hn
    exact Int.le_max_left 0 _
  | tagged v fileSize =>
    cases v with
    | object o => exact sized_canonical_of_assemble h
    | _ => cases h
  | value v =>
    cases v with
    | object o =>
      simp only [normalize, Analysis.ofValue] at h
      split at h
      · exact sized_canonical_of_assemble h
      · exact sized_canonical_of_assemble h
    | _ => cases h

end PETriage.Report
