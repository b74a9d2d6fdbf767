import Mathlib.Algebra.BigOperators.Group.List.Basic
import Mathlib.Algebra.GroupWithZero.Nat
import Mathlib.Data.List.Count
import PETriage.Statistics.Histogram

/-!
# What a histogram counts

An entry of the histogram of a buffer is the number of bytes of that value. The bytes of a buffer
that is put together or cut out of others are theirs, in the same order. Each byte raises the total
of the entries by one, and a histogram tells which bytes there are, though not in which order.
-/
namespace PETriage

namespace Bytes

/-- The bytes of a buffer as numbers, in order. -/
def values (b : ByteArray) : List Nat := (toList b).map UInt8.toNat

theorem length_values (b : ByteArray) : (values b).length = b.size := by
  rw [values, List.length_map]
  rfl

theorem values_append (b c : ByteArray) : values (b ++ c) = values b ++ values c := by
  rw [values, toList, ByteArray.data_append, Array.toList_append, List.map_append]
  rfl

theorem values_eq_map_range (b : ByteArray) : values b = (List.range b.size).map (byteAt b) := by
  apply List.ext_getElem
  · rw [length_values, List.length_map, List.length_range]
  · intro i hi _
    rw [length_values] at hi
    simp only [values, toList, List.getElem_map, List.getElem_range, byteAt, dif_pos hi]
    rfl

/-- The bytes of a window are those at its positions, as far as these lie in the buffer. -/
theorem values_extract (b : ByteArray) (start stop : Nat) :
    values (b.extract start stop) =
      (List.range' start (min stop b.size - start)).map (byteAt b) := by
  have hsize : (b.extract start stop).size = min stop b.size - start := ByteArray.size_extract ..
  apply List.ext_getElem
  · rw [length_values, hsize, List.length_map, List.length_range']
  · intro i hi hi'
    rw [length_values, hsize] at hi
    have hin : start + i < b.size := by omega
    simp only [values_eq_map_range, List.getElem_map, List.getElem_range, List.getElem_range',
      Nat.one_mul, byteAt, hsize, hi, hin, ↓reduceDIte, ByteArray.getElem_extract]

end Bytes

namespace Statistics.Histogram

theorem getElem_foldl_add (xs : List UInt8) (h : Histogram) (v : Nat) (hv : v < 256) :
    (xs.foldl add h)[v] = h[v] + (xs.map UInt8.toNat).count v := by
  induction xs generalizing h with
  | nil => rfl
  | cons x xs ih =>
    rw [List.foldl_cons, ih, getElem_add, List.map_cons, List.count_cons]
    by_cases hx : x.toNat = v
    · simp only [hx, ↓reduceIte, beq_self_eq_true]
      omega
    · simp only [hx, ↓reduceIte, beq_iff_eq, Nat.add_zero]

theorem getElem_ofBytes (b : ByteArray) (v : Nat) (hv : v < 256) :
    (ofBytes b)[v] = (Bytes.values b).count v := by
  have hempty : empty[v] = 0 := by simp [empty]
  simp only [ofBytes, ← Array.foldl_toList, getElem_foldl_add, hempty, Nat.zero_add]
  rfl

theorem get_ofBytes (b : ByteArray) (x : UInt8) :
    (ofBytes b).get ⟨x.toNat, x.toNat_lt⟩ = (Bytes.toList b).count x := by
  have hinjective : Function.Injective UInt8.toNat := fun _ _ => UInt8.toNat_inj.1
  have hentry : (ofBytes b).get ⟨x.toNat, x.toNat_lt⟩ = (Bytes.values b).count x.toNat :=
    getElem_ofBytes b x.toNat x.toNat_lt
  rw [hentry, Bytes.values, List.count_map_of_injective _ _ hinjective]

theorem ofBytes_append (b c : ByteArray) :
    ofBytes (b ++ c) = Vector.zipWith (· + ·) (ofBytes b) (ofBytes c) := by
  ext v hv
  simp only [Vector.getElem_zipWith, getElem_ofBytes, Bytes.values_append, List.count_append]

/-! ## The total of the entries -/

theorem sum_add (h : Histogram) (x : UInt8) : (h.add x).sum = h.sum + 1 := by
  have hx : x.toNat < h.toList.length := by
    rw [Vector.length_toList]
    exact x.toNat_lt
  -- the total in three parts: before the entry that is raised, the entry, and behind it
  have htotal := List.sum_take_add_sum_drop h.toList x.toNat
  rw [← List.getElem_cons_drop hx, List.sum_cons, Vector.getElem_toList] at htotal
  rw [add, ← Vector.sum_toList, Vector.toList_set, List.sum_set, if_pos hx, ← Vector.sum_toList]
  omega

theorem sum_foldl_add (xs : List UInt8) (h : Histogram) :
    (xs.foldl add h).sum = h.sum + xs.length := by
  induction xs generalizing h with
  | nil => rfl
  | cons x xs ih =>
    rw [List.foldl_cons, ih, sum_add, List.length_cons]
    omega

theorem sum_ofBytes (b : ByteArray) : (ofBytes b).sum = b.size := by
  have hempty : empty.sum = 0 := Vector.sum_replicate_nat.trans (Nat.mul_zero 256)
  rw [ofBytes, ← Array.foldl_toList, sum_foldl_add, hempty, Nat.zero_add]
  rfl

/-! ## Which bytes there are -/

theorem size_eq_of_ofBytes_eq {b c : ByteArray} (h : ofBytes b = ofBytes c) : b.size = c.size := by
  rw [← sum_ofBytes, h, sum_ofBytes]

/-- Buffers with the same histogram are the same bytes in some order, and only those are. -/
theorem ofBytes_eq_iff_perm {b c : ByteArray} :
    ofBytes b = ofBytes c ↔ (Bytes.toList b).Perm (Bytes.toList c) := by
  constructor
  · intro h
    rw [List.perm_iff_count]
    intro x
    rw [← get_ofBytes, h, get_ofBytes]
  · intro h
    ext v hv
    rw [getElem_ofBytes, getElem_ofBytes]
    exact (h.map UInt8.toNat).count_eq v

end Statistics.Histogram
end PETriage
