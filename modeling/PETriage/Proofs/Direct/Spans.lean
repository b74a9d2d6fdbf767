import PETriage.Proofs.Direct.Front
import PETriage.Proofs.Statistics.Windows

/-!
# The bytes that a section is measured over

A section is measured over the bytes of the buffer that lie in its file range, all of them or a
sample. Whether all of them are asked for makes a difference to no section that three windows of
the sample size cover, and to none in anything but its measure.
-/
namespace PETriage

namespace Bytes

theorem filter_range_between (n start width : Nat) :
    ((List.range n).filter fun p => start ≤ p ∧ p < start + width) =
      List.range' start (min (start + width) n - start) := by
  induction n with
  | zero => rw [Nat.min_zero, Nat.zero_sub]; rfl
  | succ n ih =>
    rw [List.range_succ, List.filter_append, ih]
    by_cases hn : start ≤ n ∧ n < start + width
    · have hcount : min (start + width) (n + 1) - start = min (start + width) n - start + 1 := by
        omega
      have hlast : start + (min (start + width) n - start) = n := by omega
      rw [hcount, List.range'_concat, Nat.one_mul, hlast]
      simp [hn]
    · have hcount : min (start + width) (n + 1) - start = min (start + width) n - start := by omega
      rw [hcount]
      simp [hn]

end Bytes

namespace Direct

open Image (Headers SectionHeader SectionRow sectionRow sectionRowSize)
open Statistics (Measure sample)

variable {config : Config} {b : ByteArray} {request other : Request} {r : Result}
  {header : SectionHeader} {i : Nat}

/-- The positions of the buffer that lie in the file range of a section. -/
def fileRange (b : ByteArray) (header : SectionHeader) : List Nat :=
  (List.range b.size).filter fun p =>
    header.rawPointer ≤ p ∧ p < header.rawPointer + header.rawSize

theorem values_sectionSpan (b : ByteArray) (header : SectionHeader) :
    Bytes.values (sectionSpan b header) = (fileRange b header).map (Bytes.byteAt b) := by
  rw [sectionSpan, Bytes.values_extract, fileRange, Bytes.filter_range_between]

theorem size_sectionSpan (b : ByteArray) (header : SectionHeader) :
    (sectionSpan b header).size = (fileRange b header).length := by
  rw [← Bytes.length_values, values_sectionSpan, List.length_map]

theorem fileRange_eq_nil (h : b.size ≤ header.rawPointer) : fileRange b header = [] := by
  rw [fileRange, Bytes.filter_range_between, Nat.sub_eq_zero_of_le (by omega)]
  rfl

/-! ## One section -/

/-- The header of row number `i` of the section table, as far as the file range is concerned. -/
structure RangeAt (r : Result) (b : ByteArray) (i : Nat) (header : SectionHeader) : Prop where
  size : header.rawSize = Bytes.double b (r.headers.sectionTable + 40 * i + 16)
  pointer : header.rawPointer = Bytes.double b (r.headers.sectionTable + 40 * i + 20)

theorem rangeAt_of_sectionRow
    (h : sectionRow b (r.headers.sectionTable + i * sectionRowSize) = .header header) :
    RangeAt r b i header := by
  rw [sectionRow, Nat.mul_comm i] at h
  split at h
  · cases h
  · cases h
    exact ⟨rfl, rfl⟩

theorem section_eq (h : parse config b request = .ok r) {s : SectionResult}
    (hs : r.sections[i]? = some s) :
    s = sectionResult config b request.measuresAll i
      (sectionRow b (r.headers.sectionTable + i * sectionRowSize)) := by
  obtain ⟨headers, hd, -⟩ := bind_eq_ok_iff.1 h
  obtain ⟨r', hr, rfl, hsections, -⟩ := parse_eq config request hd
  cases h.symm.trans hr
  rw [hsections, List.getElem?_mapIdx, Option.map_eq_some_iff] at hs
  obtain ⟨row, hrow, rfl⟩ := hs
  rw [(Headers.getElem?_sectionRows.1 hrow).2]

theorem measured_of_parse (hc : config.loose = []) (h : parse config b request = .ok r)
    {s : SectionResult} (hs : r.sections[i]? = some s) (he : s.error? = none) :
    ∃ header, RangeAt r b i header ∧ s = .measured header
      (Statistics.measure (sectionSpan b header) request.measuresAll config.limits) := by
  have hsection := section_eq h hs
  cases hrow : sectionRow b (r.headers.sectionTable + i * sectionRowSize) with
  | beyond offset =>
    rw [hrow] at hsection
    rw [hsection] at he
    cases he
  | header header =>
    rw [hrow, sectionResult, Config.measure_of_loose_nil hc] at hsection
    exact ⟨header, rangeAt_of_sectionRow hrow, hsection⟩

/-- How a section is measured: over all the bytes of its file range, or over a sample of them. -/
structure MeasuredOver (config : Config) (b : ByteArray) (whole : Bool) (header : SectionHeader)
    (m : Measure) : Prop where
  bytes : Bytes.values (sectionSpan b header) = (fileRange b header).map (Bytes.byteAt b)
  covers : m.Covers (if whole then sectionSpan b header
    else sample (sectionSpan b header) config.sampleSize)
  analyzed : (m.analyzed : Int) = if whole then ((fileRange b header).length : Int)
    else min ((fileRange b header).length : Int) (3 * config.sampleSize)

theorem exists_limits (hv : config.Valid) :
    ∃ s : Nat, config.sampleSize = s ∧ config.limits = ⟨config.largeSectionThreshold, s⟩ := by
  obtain ⟨s, hs⟩ := Int.eq_ofNat_of_zero_le (Int.le_of_lt hv.sample_pos)
  exact ⟨s, hs, by rw [Config.limits, hs]⟩

theorem measure_measuredOver (hv : config.Valid) (b : ByteArray) (whole : Bool)
    (header : SectionHeader) : MeasuredOver config b whole header
      (Statistics.measure (sectionSpan b header) whole config.limits) := by
  obtain ⟨s, hs, hlimits⟩ := exists_limits hv
  have hsize := size_sectionSpan b header
  have hcovers := Statistics.measure_covers (sectionSpan b header) whole config.limits
  cases whole with
  | true =>
    refine ⟨values_sectionSpan b header, hcovers, ?_⟩
    rw [hcovers.analyzed, ← hsize]
    rfl
  | false =>
    rw [hlimits, Statistics.judged_eq_sample] at hcovers
    refine ⟨values_sectionSpan b header, ?_, ?_⟩
    · rwa [hlimits, hs]
    · rw [hlimits, hcovers.analyzed, Statistics.size_sample, hsize, hs]
      simp only [Bool.false_eq_true, ↓reduceIte]
      omega

/-! ## Two parses of one buffer -/

/-- The same section, apart from its measure when its file range has more than `limit` bytes. -/
inductive SectionResult.Agrees (b : ByteArray) (limit : Int) : SectionResult → SectionResult → Prop
  | same (s : SectionResult) : Agrees b limit s s
  | long {header : SectionHeader} (m m' : Measure) (h : limit < (fileRange b header).length) :
    Agrees b limit (.measured header m) (.measured header m')

theorem measure_eq_of_le (hv : config.Valid) {span : ByteArray}
    (h : (span.size : Int) ≤ 3 * config.sampleSize) (whole whole' : Bool) :
    Statistics.measure span whole config.limits = Statistics.measure span whole' config.limits := by
  obtain ⟨s, hs, hlimits⟩ := exists_limits hv
  have hle : span.size ≤ 3 * s := by omega
  have hall : ∀ whole, Statistics.measure span whole config.limits =
      Statistics.measure span true config.limits := by
    intro whole
    cases whole with
    | true => rfl
    | false => rw [hlimits, Statistics.measure_of_le hle]
  rw [hall whole, hall whole']

theorem sectionResult_agrees (hc : config.loose = []) (hv : config.Valid) (b : ByteArray)
    (whole whole' : Bool) (index : Nat) (row : SectionRow) :
    (sectionResult config b whole index row).Agrees b (3 * config.sampleSize)
      (sectionResult config b whole' index row) := by
  cases row with
  | beyond offset => exact .same _
  | header header =>
    simp only [sectionResult, Config.measure_of_loose_nil hc]
    by_cases h : ((fileRange b header).length : Int) ≤ 3 * config.sampleSize
    · rw [← size_sectionSpan] at h
      rw [measure_eq_of_le hv h whole whole']
      exact .same _
    · exact .long _ _ (Int.lt_of_not_ge h)

theorem forall₂_mapIdx {α β : Type} {R : β → β → Prop} {f g : Nat → α → β}
    (h : ∀ i a, R (f i a) (g i a)) (xs : List α) :
    List.Forall₂ R (xs.mapIdx f) (xs.mapIdx g) := by
  induction xs generalizing f g with
  | nil => exact .nil
  | cons x xs ih =>
    rw [List.mapIdx_cons, List.mapIdx_cons]
    exact .cons (h 0 x) (ih fun i a => h (i + 1) a)

/-- Every section without an error is measured over exactly those bytes of the buffer that lie in
its file range, or over a sample of them when the file counts as large. Another parse of the
buffer that takes as many sections has the same headers and the same sections, of which only
those with more bytes than three windows may be measured differently, and none when both parses
measure all bytes or neither does. -/
theorem sections_measured_over_range (hc : config.loose = []) (hv : config.Valid)
    (h : parse config b request = .ok r) :
    (∀ i s, r.sections[i]? = some s → s.error? = none → ∃ header m, s = .measured header m ∧
      RangeAt r b i header ∧ MeasuredOver config b request.measuresAll header m ∧
      (b.size ≤ header.rawPointer → m.analyzed = 0)) ∧
    ∀ other : Request, other.sectionCap = request.sectionCap →
      ∃ r', parse config b other = .ok r' ∧ r'.headers = r.headers ∧ r'.skipped = r.skipped ∧
        List.Forall₂ (SectionResult.Agrees b (3 * config.sampleSize)) r.sections r'.sections ∧
        (other.measuresAll = request.measuresAll → r'.sections = r.sections) := by
  constructor
  · intro i s hs he
    obtain ⟨header, hrange, rfl⟩ := measured_of_parse hc h hs he
    have hover := measure_measuredOver hv b request.measuresAll header
    refine ⟨header, _, rfl, hrange, hover, fun hpast => ?_⟩
    have hanalyzed := hover.analyzed
    have hpos := hv.sample_pos
    rw [fileRange_eq_nil hpast, List.length_nil] at hanalyzed
    split at hanalyzed
    · omega
    · omega
  · intro other hcap
    obtain ⟨headers, hd, -⟩ := bind_eq_ok_iff.1 h
    obtain ⟨_, hr, rfl, hsections, hcounted⟩ := parse_eq config request hd
    cases h.symm.trans hr
    obtain ⟨r', hr', hheaders, hsections', hcounted'⟩ := parse_eq config other hd
    rw [hcap] at hsections'
    have hagree : List.Forall₂ (SectionResult.Agrees b (3 * config.sampleSize)) r.sections
        r'.sections := by
      rw [hsections, hsections']
      exact forall₂_mapIdx (sectionResult_agrees hc hv b _ _) _
    refine ⟨r', hr', hheaders, ?_, hagree, fun hwhole => ?_⟩
    · have hlength := hagree.length_eq
      omega
    · rw [hsections, hsections', hwhole]

/-- An image that ends inside the file range of its first section and before that of its second. -/
def clippedImage : ByteArray :=
  Bytes.ofList ([0x4D, 0x5A] ++ List.replicate 58 0 ++ Bytes.unlittle 4 64 ++ Image.signature ++
    Bytes.unlittle 2 0x14C ++ Bytes.unlittle 2 2 ++ List.replicate 16 0 ++
    [0x2E, 0x74, 0x65, 0x78, 0x74, 0, 0, 0] ++ List.replicate 8 0 ++ Bytes.unlittle 4 512 ++
    Bytes.unlittle 4 168 ++ List.replicate 16 0 ++
    [0x2E, 0x64, 0x61, 0x74, 0x61, 0, 0, 0] ++ List.replicate 8 0 ++ Bytes.unlittle 4 512 ++
    Bytes.unlittle 4 4096 ++ List.replicate 16 0 ++ [0x55, 0x8B, 0xEC, 0x31, 0xC0, 0x5D, 0xC3])

/-- Two bytes a window, so that seven bytes are sampled. -/
def shortWindows : Config := { sampleSize := 2, largeSectionThreshold := 2 }

theorem sections_measured_over_range_clipped :
    shortWindows.loose = [] ∧ shortWindows.Valid ∧
    ∃ r r', parse shortWindows clippedImage { largeFile := true } = .ok r ∧
      parse shortWindows clippedImage {} = .ok r' ∧ r'.headers = r.headers ∧
      r.sections.length = 2 ∧ r'.sections.length = 2 ∧
      List.Forall₂ (SectionResult.Agrees clippedImage 6) r.sections r'.sections := by
  have hv : shortWindows.Valid := by constructor <;> decide
  have hok : ((parse shortWindows clippedImage { largeFile := true }).toOption.map
      (·.sections.length)) = some 2 := by decide +kernel
  cases hr : parse shortWindows clippedImage { largeFile := true } with
  | error e =>
    rw [hr] at hok
    cases hok
  | ok r =>
    rw [hr] at hok
    obtain ⟨r', hr', hheaders, -, hagree, -⟩ :=
      (sections_measured_over_range rfl hv hr).2 {} rfl
    have hlength : r.sections.length = 2 := Option.some.inj hok
    exact ⟨rfl, hv, r, r', rfl, hr', hheaders, hlength, hagree.length_eq ▸ hlength, hagree⟩

end Direct
end PETriage
