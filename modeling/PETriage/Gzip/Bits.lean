import PETriage.Bytes

/-!
# Bits of a compressed stream

Bytes are taken low bit first. A reading function gives its result and the bits after it;
it fails on a stream that ends too early or that cannot be the work of a compressor.
-/
namespace PETriage.Gzip

inductive ReadError
  | notCompressed
  | truncated
  | checkFailed
  | corrupt
  deriving DecidableEq, Repr

/-- The bits left of the byte that is being read, and the bytes after it. -/
structure Bits where
  held : List Bool
  rest : List UInt8

namespace Bits

def ofBytes (xs : List UInt8) : Bits := ⟨[], xs⟩

def count (s : Bits) : Nat := s.held.length + 8 * s.rest.length

def ofByte (x : UInt8) : List Bool := (List.range 8).map x.toNat.testBit

def bit : Bits → Except ReadError (Bool × Bits)
  | ⟨b :: held, rest⟩ => .ok (b, ⟨held, rest⟩)
  | ⟨[], x :: rest⟩ => .ok (x.toNat.testBit 0, ⟨(ofByte x).drop 1, rest⟩)
  | ⟨[], []⟩ => .error .truncated

def number : Nat → Bits → Except ReadError (Nat × Bits)
  | 0, s => .ok (0, s)
  | n + 1, s => do
    let (b, s) ← bit s
    let (high, s) ← number n s
    return ((if b then 1 else 0) + 2 * high, s)

/-- Passes over what is left of the current byte. -/
def aligned (s : Bits) : Bits := ⟨[], s.rest⟩

def take (n : Nat) (s : Bits) : Except ReadError (List UInt8 × Bits) :=
  if n ≤ s.rest.length then .ok (s.rest.take n, ⟨[], s.rest.drop n⟩) else .error .truncated

end Bits

def numberOf : List UInt8 → Nat
  | [] => 0
  | x :: rest => x.toNat + 256 * numberOf rest

theorem numberOf_unlittle (width n : Nat) (h : n < Nat.pow 256 width) :
    numberOf (Bytes.unlittle width n) = n := by
  induction width generalizing n with
  | zero => simp at h; simp [Bytes.unlittle, numberOf, h]
  | succ width ih =>
    have hd : n / 256 < Nat.pow 256 width := by
      change n < Nat.pow 256 width * 256 at h
      exact Nat.div_lt_of_lt_mul (by omega)
    simp only [Bytes.unlittle, numberOf, ih _ hd, UInt8.toNat_ofNat']
    omega

end PETriage.Gzip
