import Mathlib.Data.List.Basic
import PETriage.Gzip.Bits

/-!
# Bytes that stand in a buffer

`Holds` says that a buffer has a row of bytes from an offset on. A row of numbers is held when
each number is read at its own place.
-/
namespace PETriage.Bytes

variable {b : ByteArray} {offset width n : Nat} {x : UInt8} {xs ys : List UInt8}

theorem length_toList (b : ByteArray) : (toList b).length = b.size := rfl

theorem byteAt_of_getElem? {i : Nat} (h : (toList b)[i]? = some x) : byteAt b i = x.toNat := by
  obtain ⟨hi, hx⟩ := List.getElem?_eq_some_iff.1 h
  rw [length_toList] at hi
  rw [byteAt, dif_pos hi, ← hx]
  rfl

def Holds (b : ByteArray) (offset : Nat) (xs : List UInt8) : Prop :=
  xs <+: (toList b).drop offset

theorem holds_ofList (before xs after : List UInt8) :
    Holds (ofList (before ++ xs ++ after)) before.length xs := by
  rw [Holds, toList_ofList, List.append_assoc, List.drop_left]
  exact List.prefix_append xs after

theorem Holds.left (h : Holds b offset (xs ++ ys)) : Holds b offset xs :=
  (List.prefix_append xs ys).trans h

theorem Holds.right (h : Holds b offset (xs ++ ys)) : Holds b (offset + xs.length) ys := by
  obtain ⟨after, h⟩ := h
  rw [Holds, ← List.drop_drop, ← h, List.append_assoc, List.drop_left]
  exact List.prefix_append ys after

theorem Holds.next {after : Nat} (h : Holds b offset (xs ++ ys))
    (ho : offset + xs.length = after) : Holds b after ys :=
  ho ▸ h.right

theorem Holds.length_le (h : Holds b offset xs) (hne : xs ≠ []) :
    offset + xs.length ≤ b.size := by
  have hlength := List.IsPrefix.length_le h
  have hpos := List.length_pos_iff.2 hne
  rw [List.length_drop, length_toList] at hlength
  omega

theorem Holds.byteAt (h : Holds b offset (x :: xs)) : byteAt b offset = x.toNat := by
  obtain ⟨after, h⟩ := h
  apply byteAt_of_getElem?
  rw [← Nat.add_zero offset, ← List.getElem?_drop, ← h]
  rfl

theorem Holds.little (h : Holds b offset xs) : little b offset xs.length = Gzip.numberOf xs := by
  induction xs generalizing offset with
  | nil => rfl
  | cons x xs ih =>
    have hfirst := h.byteAt
    have hjoined : Holds b offset ([x] ++ xs) := h
    have hrest := ih hjoined.right
    rw [List.length_cons, Bytes.little, hfirst, Gzip.numberOf]
    exact congrArg (fun m => x.toNat + 256 * m) hrest

theorem Holds.extract (h : Holds b offset xs) :
    toList (b.extract offset (offset + xs.length)) = xs := by
  have htake := List.prefix_iff_eq_take.1 h
  rw [toList, ByteArray.data_extract, Array.toList_extract, List.extract_eq_take_drop,
    Nat.add_sub_cancel_left]
  exact htake.symm

/-! ## Rows of numbers -/

/-- A number together with the bytes it is written in. -/
structure Sized where
  width : Nat
  value : Nat
  fits : value < Nat.pow 256 width

def byte (n : UInt8) : Sized := ⟨1, n.toNat, n.toNat_lt⟩
def word16 (n : UInt16) : Sized := ⟨2, n.toNat, n.toNat_lt⟩
def word32 (n : UInt32) : Sized := ⟨4, n.toNat, n.toNat_lt⟩
def word64 (n : UInt64) : Sized := ⟨8, n.toNat, n.toNat_lt⟩

def Sized.bytes (n : Sized) : List UInt8 := unlittle n.width n.value

def row (ns : List Sized) : List UInt8 := ns.flatMap Sized.bytes

/-- Each number is read where the numbers before it end. -/
def Reads (b : ByteArray) (offset : Nat) : List Sized → Prop
  | [] => True
  | n :: ns => Bytes.little b offset n.width = n.value ∧ Reads b (offset + n.width) ns

theorem Sized.length_bytes (n : Sized) : n.bytes.length = n.width := length_unlittle ..

theorem Holds.reads {ns : List Sized} (h : Holds b offset (row ns)) : Reads b offset ns := by
  induction ns generalizing offset with
  | nil => trivial
  | cons n ns ih =>
    rw [row, List.flatMap_cons] at h
    have hfirst := h.left.little
    have hrest := h.right
    rw [Sized.length_bytes] at hfirst hrest
    rw [Sized.bytes, Gzip.numberOf_unlittle n.width n.value n.fits] at hfirst
    exact ⟨hfirst, ih hrest⟩

end PETriage.Bytes
