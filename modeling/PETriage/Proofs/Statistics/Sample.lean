import PETriage.Statistics.Sample

/-!
# Samples are small

A span under limits is judged by three windows of it at most, none longer than the sample size.
-/
namespace PETriage

namespace Bytes

theorem size_window_le (b : ByteArray) {start stop : Int} (h0 : 0 ≤ start) (h : start ≤ stop) :
    ((window b start stop).size : Int) ≤ stop - start := by
  have hstart : endpoint b.size start = min start.toNat b.size := if_neg (by omega)
  have hstop : endpoint b.size stop = min stop.toNat b.size := if_neg (by omega)
  rw [window, hstart, hstop, ByteArray.size_extract]
  omega

end Bytes

namespace Statistics

variable {b : ByteArray} {size : Int}

theorem size_sample_le (b : ByteArray) (h : 0 ≤ size) :
    ((sample b size).size : Int) ≤ 3 * size := by
  unfold sample
  split
  · omega
  · rename_i hlong
    -- the middle window starts inside the span because the span is longer than three of them
    have hhalf : Int.fdiv size 2 = size / 2 := Int.fdiv_eq_ediv_of_nonneg _ (by decide)
    have hmiddle : 0 ≤ middleOf b.size size := by
      rw [middleOf, hhalf]
      omega
    have hfront := Bytes.size_window_le b (Int.le_refl 0) h
    have hmid := Bytes.size_window_le b hmiddle (Int.le_add_of_nonneg_right h)
    have hback := Bytes.size_window_le b (show 0 ≤ b.size - size by omega)
      (show b.size - size ≤ b.size by omega)
    simp only [ByteArray.size_append]
    omega

theorem size_judged_le (b : ByteArray) (limits : Limits) (h : 0 ≤ limits.sampleSize) :
    ((judged b false limits).size : Int) ≤ 3 * limits.sampleSize := by
  unfold judged
  split
  · exact size_sample_le b h
  · rename_i hshort
    simp only [Bool.not_false, Bool.true_and, decide_eq_true_eq] at hshort
    omega

/-- A measure is the one of these bytes, which may be fewer than the span has. -/
structure Measure.Covers (m : Measure) (span : ByteArray) : Prop where
  entropy : m.entropy = Statistics.entropy span
  chiSquare : m.chiSquare = Statistics.chiSquare span
  analyzed : m.analyzed = span.size

theorem measure_covers (b : ByteArray) (whole : Bool) (limits : Limits) :
    (measure b whole limits).Covers (judged b whole limits) :=
  ⟨rfl, rfl, rfl⟩

end Statistics
end PETriage
