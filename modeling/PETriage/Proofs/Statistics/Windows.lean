import Mathlib.Data.List.Perm.Subperm
import PETriage.Proofs.Statistics.Histogram
import PETriage.Proofs.Statistics.Sample

/-!
# The windows of a sample

A span that is longer than three windows is represented by three windows that lie apart: at its
front, around its middle and at its end. No position is taken twice, so a byte value is never
counted more often than the span has it. Which of the two limits a span exceeds first makes no
difference, because a span that three windows cover is represented by itself.
-/
namespace PETriage.Statistics

variable {b : ByteArray} {n s : Nat}

/-- Where the middle one of three windows begins. -/
def middleStart (n s : Nat) : Nat := n / 2 - s / 2

theorem middleStart_bounds (h : 3 * s < n) :
    s ≤ middleStart n s ∧ middleStart n s + s ≤ n - s := by
  unfold middleStart
  omega

theorem middleOf_eq (h : 3 * s < n) : middleOf n s = middleStart n s := by
  have hhalf : Int.fdiv s 2 = (s / 2 : Nat) := Int.fdiv_eq_ediv_of_nonneg _ (by decide)
  rw [middleOf, hhalf, middleStart]
  omega

theorem sample_of_le (h : b.size ≤ 3 * s) : sample b s = b :=
  if_pos (by omega)

theorem sample_of_lt (h : 3 * s < b.size) :
    sample b s = b.extract 0 s ++ b.extract (middleStart b.size s) (middleStart b.size s + s) ++
      b.extract (b.size - s) b.size := by
  obtain ⟨hfront, hback⟩ := middleStart_bounds h
  have hfirst : Bytes.window b 0 s = b.extract 0 s :=
    Bytes.window_of_le b (Nat.zero_le s) (by omega)
  have hmiddle : Bytes.window b (middleOf b.size s) (middleOf b.size s + s) =
      b.extract (middleStart b.size s) (middleStart b.size s + s) := by
    rw [middleOf_eq h, ← Int.natCast_add]
    exact Bytes.window_of_le b (Nat.le_add_right ..) (by omega)
  have hlast : Bytes.window b (b.size - s) b.size = b.extract (b.size - s) b.size := by
    rw [← Int.natCast_sub (by omega)]
    exact Bytes.window_of_le b (Nat.sub_le ..) (Nat.le_refl _)
  rw [sample, if_neg (by omega)]
  simp only [hfirst, hmiddle, hlast]

/-! ## Positions -/

/-- The positions at which a span of `n` bytes is looked at. -/
def positions (n s : Nat) : List Nat :=
  if n ≤ 3 * s then List.range n
  else List.range' 0 s ++ List.range' (middleStart n s) s ++ List.range' (n - s) s

theorem positions_rising (n s : Nat) : (positions n s).Pairwise (· < ·) := by
  unfold positions
  split
  · exact List.pairwise_lt_range
  · rename_i h
    obtain ⟨hfront, hback⟩ := middleStart_bounds (Nat.lt_of_not_le h)
    simp only [List.pairwise_append, List.mem_append, List.mem_range'_1]
    refine ⟨⟨List.pairwise_lt_range', List.pairwise_lt_range', fun p hp q hq => ?_⟩,
      List.pairwise_lt_range', fun p hp q hq => ?_⟩
    · omega
    · omega

theorem positions_lt {p : Nat} (hp : p ∈ positions n s) : p < n := by
  unfold positions at hp
  split at hp
  · exact List.mem_range.1 hp
  · rename_i h
    obtain ⟨hfront, hback⟩ := middleStart_bounds (Nat.lt_of_not_le h)
    simp only [List.mem_append, List.mem_range'_1] at hp
    omega

theorem length_positions (n s : Nat) : (positions n s).length = min n (3 * s) := by
  unfold positions
  split
  · rw [List.length_range]
    omega
  · simp only [List.length_append, List.length_range']
    omega

/-- A sample consists of the bytes at these positions. -/
theorem values_sample (b : ByteArray) (s : Nat) :
    Bytes.values (sample b s) = (positions b.size s).map (Bytes.byteAt b) := by
  unfold positions
  split
  · rename_i h
    rw [sample_of_le h, Bytes.values_eq_map_range]
  · rename_i h
    have h := Nat.lt_of_not_le h
    obtain ⟨hfront, hback⟩ := middleStart_bounds h
    have hfirst : min s b.size - 0 = s := by omega
    have hmiddle : min (middleStart b.size s + s) b.size - middleStart b.size s = s := by omega
    have hlast : min b.size b.size - (b.size - s) = s := by omega
    simp only [sample_of_lt h, Bytes.values_append, Bytes.values_extract, hfirst, hmiddle, hlast,
      List.map_append]

theorem size_sample (b : ByteArray) (s : Nat) : (sample b s).size = min b.size (3 * s) := by
  rw [← Bytes.length_values, values_sample, List.length_map, length_positions]

/-- Nothing is counted twice, so a sample has no more bytes of a value than the span. -/
theorem count_sample_le (b : ByteArray) (s v : Nat) (hv : v < 256) :
    (Histogram.ofBytes (sample b s))[v] ≤ (Histogram.ofBytes b)[v] := by
  have hnodup : (positions b.size s).Nodup := (positions_rising _ _).imp Nat.ne_of_lt
  have hsubset : positions b.size s ⊆ List.range b.size :=
    fun p hp => List.mem_range.2 (positions_lt hp)
  obtain ⟨taken, hperm, htaken⟩ := List.subperm_of_subset hnodup hsubset
  rw [Histogram.getElem_ofBytes, Histogram.getElem_ofBytes, values_sample,
    Bytes.values_eq_map_range b, ← (hperm.map _).count_eq]
  exact (htaken.map _).count_le v

/-! ## Measures -/

/-- The threshold makes no difference: a span under three windows is its own sample. -/
theorem judged_eq_sample (b : ByteArray) (threshold : Int) (s : Nat) :
    judged b false ⟨threshold, s⟩ = sample b s := by
  unfold judged
  split
  · rfl
  · rename_i h
    simp only [Bool.not_false, Bool.true_and, decide_eq_true_eq] at h
    exact (sample_of_le (by omega)).symm

theorem measure_threshold (b : ByteArray) (threshold threshold' : Int) (s : Nat) :
    measure b false ⟨threshold, s⟩ = measure b false ⟨threshold', s⟩ := by
  rw [measure, measure, judged_eq_sample, judged_eq_sample]

theorem measure_of_le {threshold : Int} (h : b.size ≤ 3 * s) :
    measure b false ⟨threshold, s⟩ = measure b true ⟨threshold, s⟩ := by
  rw [measure, measure, judged_eq_sample, sample_of_le h]
  rfl

/-- A sample of a span is the span itself when it has three windows of bytes at most, and else
three windows of it that lie apart; no byte of any value is counted more often than the span has
it. Under every threshold the measure of the span is the one of its sample, and the span is said
to be sampled exactly when it is longer; a measure of the whole is the one of the span. -/
theorem sample_windows (b : ByteArray) (s : Nat) :
    (b.size ≤ 3 * s → sample b s = b) ∧
    (3 * s < b.size → (sample b s).size = 3 * s ∧
      ∃ m : Nat, (m : Int) = (b.size : Int) / 2 - (s : Int) / 2 ∧ s ≤ m ∧ m + s ≤ b.size - s ∧
        sample b s = b.extract 0 s ++ b.extract m (m + s) ++ b.extract (b.size - s) b.size) ∧
    ((positions b.size s).Pairwise (· < ·) ∧ (∀ p ∈ positions b.size s, p < b.size) ∧
      Bytes.values (sample b s) = (positions b.size s).map (Bytes.byteAt b)) ∧
    (∀ v (hv : v < 256), (Histogram.ofBytes (sample b s))[v] ≤ (Histogram.ofBytes b)[v]) ∧
    (∀ threshold : Int, let m := measure b false ⟨threshold, s⟩
      m.Covers (sample b s) ∧ m.analyzed = min b.size (3 * s) ∧
      (m.sampled = true ↔ 3 * s < b.size) ∧
      ∀ threshold' : Int, measure b false ⟨threshold', s⟩ = m) ∧
    ∀ threshold : Int, let m := measure b true ⟨threshold, s⟩
      m.Covers b ∧ m.analyzed = b.size ∧ m.sampled = false := by
  refine ⟨sample_of_le, fun h => ⟨?_, middleStart b.size s, ?_, ?_⟩, ⟨positions_rising _ _,
    fun p hp => positions_lt hp, values_sample b s⟩, count_sample_le b s, fun threshold => ?_,
    fun threshold => ?_⟩
  · rw [size_sample]
    omega
  · rw [← middleOf_eq h, middleOf, Int.fdiv_eq_ediv_of_nonneg _ (by decide)]
    rfl
  · obtain ⟨hfront, hback⟩ := middleStart_bounds h
    exact ⟨hfront, hback, sample_of_lt h⟩
  · intro m
    have hcovers := measure_covers b false ⟨threshold, s⟩
    rw [judged_eq_sample] at hcovers
    have hanalyzed : m.analyzed = min b.size (3 * s) := hcovers.analyzed.trans (size_sample b s)
    have hsampled : m.sampled = decide (m.analyzed < b.size) := rfl
    refine ⟨hcovers, hanalyzed, ?_, fun threshold' => measure_threshold b threshold' threshold s⟩
    rw [hsampled, decide_eq_true_eq, hanalyzed]
    omega
  · intro m
    have hcovers : m.Covers b := measure_covers b true ⟨threshold, s⟩
    have hsampled : m.sampled = decide (m.analyzed < b.size) := rfl
    refine ⟨hcovers, hcovers.analyzed, ?_⟩
    rw [hsampled, decide_eq_false_iff_not, hcovers.analyzed]
    omega

end PETriage.Statistics
