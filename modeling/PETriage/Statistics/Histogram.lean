import PETriage.Bytes

/-!
# Byte histogram

How often each of the 256 byte values occurs in a buffer. Entry `v` is the count of `v`.
-/
namespace PETriage.Statistics

abbrev Histogram := Vector Nat 256

namespace Histogram

def empty : Histogram := Vector.replicate 256 0

def add (h : Histogram) (x : UInt8) : Histogram :=
  have : x.toNat < 256 := x.toNat_lt
  h.set x.toNat (h[x.toNat] + 1)

def ofBytes (b : ByteArray) : Histogram := b.data.foldl add empty

theorem getElem_add (h : Histogram) (x : UInt8) (v : Nat) (hv : v < 256) :
    (h.add x)[v] = if x.toNat = v then h[v] + 1 else h[v] := by
  unfold add
  by_cases e : x.toNat = v
  · subst e; simp
  · simp [e]

/-- The byte values that occur, in ascending order, with their counts. -/
def occurring (h : Histogram) : List (Nat × Nat) :=
  (List.range 256).zip h.toList |>.filter fun (_, count) => count != 0

end Histogram
end PETriage.Statistics
