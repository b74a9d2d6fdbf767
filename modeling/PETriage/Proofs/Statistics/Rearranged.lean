import PETriage.Proofs.Statistics.Histogram
import PETriage.Proofs.Statistics.Sample
import PETriage.Statistics.Given

/-!
# Statistics of rearranged bytes

A histogram is the multiset of the bytes of a buffer. Entropy, chi-square and the measure of a
whole span depend on it and on nothing else of the buffer, so they are the same for its bytes in
any other order. A span that is measured as a whole has the statistics of its bytes, whatever
stands in the limits for samples.
-/
namespace PETriage.Statistics

variable {b c : ByteArray}

/-! ## Measures of the whole -/

theorem measure_whole (b : ByteArray) (limits : Limits) :
    measure b true limits = ⟨entropy b, chiSquare b, b.size, false⟩ := by
  have hnone : decide (b.size < b.size) = false := decide_eq_false (Nat.lt_irrefl b.size)
  rw [← hnone]
  rfl

/-- Limits of any kind are not looked at when the whole is to be measured. -/
theorem measureGiven_whole (b : ByteArray) (threshold size : Value) :
    measureGiven b true threshold size = .ok ⟨entropy b, chiSquare b, b.size, false⟩ := by
  unfold measureGiven
  split
  · rw [measure_whole]
  · rw [if_pos rfl, measure_whole]

/-! ## Functions of the histogram -/

theorem entropy_congr (h : Histogram.ofBytes b = Histogram.ofBytes c) : entropy b = entropy c := by
  rw [entropy, h, Histogram.size_eq_of_ofBytes_eq h, entropy]

theorem chiSquare_congr (h : Histogram.ofBytes b = Histogram.ofBytes c) :
    chiSquare b = chiSquare c := by
  rw [chiSquare, h, Histogram.size_eq_of_ofBytes_eq h, chiSquare]

theorem measureGiven_whole_congr (h : Histogram.ofBytes b = Histogram.ofBytes c)
    (threshold size : Value) :
    measureGiven b true threshold size = measureGiven c true threshold size := by
  rw [measureGiven_whole, measureGiven_whole, entropy_congr h, chiSquare_congr h,
    Histogram.size_eq_of_ofBytes_eq h]

/-- A histogram has 256 entries, in each of which stands how often the buffer has that byte. They
add up to the length of the buffer, and those of two buffers in a row are added one by one. Two
buffers have the same histogram exactly when one is the other rearranged; then their entropy, their
chi-square and their measures as a whole are the same. Under limits of any kind a measure as a
whole is given, and it has the entropy and the chi-square of the buffer. -/
theorem histogram_exact (b : ByteArray) :
    ((Histogram.ofBytes b).toList.length = 256 ∧
      (∀ x : UInt8, (Histogram.ofBytes b).get ⟨x.toNat, x.toNat_lt⟩ = (Bytes.toList b).count x) ∧
      (Histogram.ofBytes b).sum = b.size) ∧
    (∀ c : ByteArray, Histogram.ofBytes (b ++ c) =
      Vector.zipWith (· + ·) (Histogram.ofBytes b) (Histogram.ofBytes c)) ∧
    (∀ c : ByteArray, Histogram.ofBytes b = Histogram.ofBytes c ↔
      (Bytes.toList b).Perm (Bytes.toList c)) ∧
    (∀ c : ByteArray, (Bytes.toList b).Perm (Bytes.toList c) →
      entropy b = entropy c ∧ chiSquare b = chiSquare c ∧ ∀ threshold size : Value,
        measureGiven b true threshold size = measureGiven c true threshold size) ∧
    (∀ threshold size : Value,
      measureGiven b true threshold size = .ok ⟨entropy b, chiSquare b, b.size, false⟩) ∧
    ∀ limits : Limits, measure b true limits = ⟨entropy b, chiSquare b, b.size, false⟩ := by
  refine ⟨⟨Vector.length_toList, Histogram.get_ofBytes b, Histogram.sum_ofBytes b⟩,
    Histogram.ofBytes_append b, fun c => Histogram.ofBytes_eq_iff_perm, fun c hperm => ?_,
    measureGiven_whole b, measure_whole b⟩
  have hcounts := Histogram.ofBytes_eq_iff_perm.2 hperm
  exact ⟨entropy_congr hcounts, chiSquare_congr hcounts, measureGiven_whole_congr hcounts⟩

/-- A buffer of five bytes and the same bytes in another order. -/
theorem histogram_exact_reordered :
    let b := Bytes.ofList [0x4D, 0x5A, 0x00, 0x4D, 0xFF]
    let c := Bytes.ofList [0x00, 0x4D, 0xFF, 0x4D, 0x5A]
    b ≠ c ∧ (Bytes.toList b).Perm (Bytes.toList c) ∧ entropy b = entropy c ∧
      chiSquare b = chiSquare c ∧ ∀ threshold size : Value,
        measureGiven b true threshold size = measureGiven c true threshold size := by
  intro b c
  have hne : b ≠ c := by decide
  have hperm : (Bytes.toList b).Perm (Bytes.toList c) := by decide
  obtain ⟨-, -, -, hsame, -⟩ := histogram_exact b
  exact ⟨hne, hperm, hsame c hperm⟩

end PETriage.Statistics
