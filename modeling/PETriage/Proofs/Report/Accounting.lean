import Mathlib.Data.Nat.Digits.Defs
import PETriage.Proofs.Direct.Front
import PETriage.Proofs.Image.Decode
import PETriage.Report.Normalize

/-!
# Sections that are declared, taken and shown

Of the rows that the file header declares the parser takes as many as its limits allow and counts
the others. Each row that was taken keeps its place, also where it lies past the buffer, and the
analysis shows the sections in the same places with one entry for all that were left out.
-/
namespace PETriage

namespace Direct

open Image (Headers SectionHeader SectionRow sectionRow sectionRowSize)

variable {config : Config} {b : ByteArray} {request : Request} {r : Result} {i : Nat}

/-- Row number `i` of the section table does not lie in the buffer. -/
def Result.Beyond (r : Result) (b : ByteArray) (i : Nat) : Prop :=
  b.size < r.headers.sectionTable + 40 * (i + 1)

/-- A row in the buffer is measured under its own header, any other fails under its number. -/
inductive Result.RowResult (r : Result) (b : ByteArray) (i : Nat) : SectionResult → Prop
  | measured {header : SectionHeader} (m : Statistics.Measure) (h : ¬r.Beyond b i)
    (row : sectionRow b (r.headers.sectionTable + i * sectionRowSize) = .header header) :
    RowResult r b i (.measured header m)
  | failed (reason : String) (h : r.Beyond b i) : RowResult r b i (.failed i reason)

theorem Result.RowResult.isSome_error? {s : SectionResult} (h : r.RowResult b i s) :
    s.error?.isSome ↔ r.Beyond b i := by
  cases h with
  | measured m h row => exact iff_of_false nofun h
  | failed reason h => exact iff_of_true rfl h

theorem Result.Beyond.mono {j : Nat} (h : r.Beyond b i) (hij : i ≤ j) : r.Beyond b j := by
  simp only [Result.Beyond] at h ⊢
  omega

structure Result.Accounted (config : Config) (b : ByteArray) (request : Request) (r : Result) :
    Prop where
  taken : (r.sections.length : Int) =
    max 0 (min (r.headers.file.sectionCount : Int) (sectionLimit config request.sectionCap))
  skipped : r.skipped = r.headers.file.sectionCount - r.sections.length
  rows : ∀ i s, r.sections[i]? = some s → r.RowResult b i s
  failing : ∀ i s, r.sections[i]? = some s → (s.error?.isSome ↔ r.Beyond b i)
  suffix : ∀ (i j : Nat) (s t : SectionResult), i ≤ j → r.sections[i]? = some s →
    r.sections[j]? = some t → s.error?.isSome → t.error?.isSome

theorem rowResult_sectionResult (hc : config.loose = []) (whole : Bool) :
    r.RowResult b i (sectionResult config b whole i
      (sectionRow b (r.headers.sectionTable + i * sectionRowSize))) := by
  have hbeyond : r.Beyond b i ↔
      b.size < r.headers.sectionTable + i * sectionRowSize + sectionRowSize := by
    simp only [Result.Beyond, sectionRowSize]
    omega
  cases hrow : sectionRow b (r.headers.sectionTable + i * sectionRowSize) with
  | beyond offset =>
    apply Result.RowResult.failed
    by_contra hn
    rw [sectionRow, if_neg (hbeyond.not.1 hn)] at hrow
    cases hrow
  | header header =>
    rw [sectionResult, Config.measure_of_loose_nil hc]
    refine .measured _ ?_ hrow
    intro hb
    rw [sectionRow, if_pos (hbeyond.1 hb)] at hrow
    cases hrow

theorem parse_accounted (hc : config.loose = []) (h : parse config b request = .ok r) :
    r.Accounted config b request := by
  obtain ⟨headers, hd, -⟩ := bind_eq_ok_iff.1 h
  obtain ⟨r', hr, rfl, hsections, hcount⟩ := parse_eq config request hd
  cases h.symm.trans hr
  have hrows : ∀ i s, r.sections[i]? = some s → r.RowResult b i s := by
    intro i s hs
    rw [hsections, List.getElem?_mapIdx, Option.map_eq_some_iff] at hs
    obtain ⟨row, hrow, rfl⟩ := hs
    rw [Headers.getElem?_sectionRows] at hrow
    obtain ⟨-, rfl⟩ := hrow
    exact rowResult_sectionResult hc _
  refine ⟨?_, by omega, hrows, fun i s hs => (hrows i s hs).isSome_error?, ?_⟩
  · rw [hsections, List.length_mapIdx, Headers.length_sectionRows, Int.toNat_eq_max, Int.max_comm]
  · intro i j s t hij hs ht hfail
    have hi := (hrows i s hs).isSome_error?.1 hfail
    exact (hrows j t ht).isSome_error?.2 (hi.mono hij)

end Direct

namespace Report

variable {config : Config} {b : ByteArray} {request : Direct.Request} {r : Direct.Result}

theorem length_addressText {n : Nat} (h : n < Nat.pow 256 4) : (addressText n).length = 10 := by
  have hdigits := Nat.toDigits_length 16 n 8 (by decide) h
  have hpad : ((Number.hexDigits n).leftpad 8 '0').length = max 8 (Number.hexDigits n).length :=
    List.length_leftpad
  rw [addressText, Number.hexPadded, String.length_ofList]
  simp only [List.length_cons, Number.hexDigits] at hpad ⊢
  omega

/-- The entry shows what was measured, or says that the section could not be processed. -/
def SectionEntry.Shows (e : SectionEntry) : Direct.SectionResult → Prop
  | .measured h _ => e.name = h.name ∧
      (e.address = Number.hexPadded 8 h.virtualAddress ∧ e.address.length = 10) ∧
      e.virtualSize = h.virtualSize ∧ e.rawSize = h.rawSize ∧
      e.characteristics = h.characteristics
  | .unmeasured .. | .failed .. => e = { name := "Error processing section" }

structure Analysis.ShowsSections (a : Analysis) (r : Direct.Result) : Prop where
  length : a.sections.length = r.sections.length + if r.skipped = 0 then 0 else 1
  entries : ∀ (i : Nat) (s : Direct.SectionResult), r.sections[i]? = some s →
    ∃ e : SectionEntry, a.sections[i]? = some e ∧ e.Shows s
  sentinel : r.skipped ≠ 0 → a.sections[r.sections.length]? = some
    { name := "[" ++ Number.decimal r.skipped ++ " more sections - skipped for performance]" }

theorem sectionRow_virtualAddress_lt {base : Nat} {header : Image.SectionHeader}
    (h : Image.sectionRow b base = .header header) : header.virtualAddress < Nat.pow 256 4 := by
  rw [Image.sectionRow] at h
  split at h
  · cases h
  · cases h
    exact Bytes.little_lt b _ 4

theorem sectionOfDirect_shows {i : Nat} {s : Direct.SectionResult} (h : r.RowResult b i s) :
    (sectionOfDirect s).Shows s := by
  cases h with
  | measured m h row =>
    have haddress := length_addressText (sectionRow_virtualAddress_lt row)
    exact ⟨rfl, ⟨rfl, haddress⟩, rfl, rfl, rfl⟩
  | failed reason h => rfl

theorem ofDirect_showsSections (h : ∀ i s, r.sections[i]? = some s → r.RowResult b i s) :
    (Analysis.ofDirect r).ShowsSections r := by
  have hlength : (r.sections.map sectionOfDirect).length = r.sections.length := List.length_map _
  constructor
  · rw [Analysis.ofDirect, List.length_append, hlength]
    by_cases hs : r.skipped = 0
    · simp [hs]
    · simp [hs]
  · intro i s hs
    obtain ⟨hi, -⟩ := List.getElem?_eq_some_iff.1 hs
    refine ⟨sectionOfDirect s, ?_, sectionOfDirect_shows (h i s hs)⟩
    rw [Analysis.ofDirect, List.getElem?_append_left (by omega), List.getElem?_map, hs]
    rfl
  · intro hs
    rw [Analysis.ofDirect, List.getElem?_append_right (by omega), hlength, Nat.sub_self,
      if_neg (by simpa using hs)]
    rfl

/-- Every section that the file header declares is taken or counted as skipped, in the order of
the section table, and the analysis shows it in its place. -/
theorem sections_accounted (hc : config.loose = []) (h : Direct.parse config b request = .ok r) :
    r.Accounted config b request ∧
    ∃ a, normalize (.direct r) = .ok a ∧ a.ShowsSections r := by
  have haccounted := Direct.parse_accounted hc h
  exact ⟨haccounted, _, rfl, ofDirect_showsSections haccounted.rows⟩

/-- One section of two is taken from an image that holds the first row of its table only. -/
theorem sections_accounted_cutImage : ∃ r, ({} : Config).loose = [] ∧
    Direct.parse {} Direct.cutImage { sectionCap := some 1 } = .ok r ∧
    r.Accounted {} Direct.cutImage { sectionCap := some 1 } ∧
    ∃ a, normalize (.direct r) = .ok a ∧ a.ShowsSections r := by
  have hok : (Image.Headers.decode Direct.cutImage).toOption.isSome = true := by decide +kernel
  cases hd : Image.Headers.decode Direct.cutImage with
  | error e =>
    rw [hd] at hok
    cases hok
  | ok headers =>
    obtain ⟨r, hr, -⟩ := Direct.parse_eq {} { sectionCap := some 1 } hd
    exact ⟨r, rfl, hr, sections_accounted rfl hr⟩

end Report
end PETriage
