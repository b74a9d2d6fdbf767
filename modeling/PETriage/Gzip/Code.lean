import PETriage.Gzip.Bits

/-!
# Prefix codes given by lengths

Symbols with a length get consecutive codes, shorter ones first and equal lengths in the
order of the symbols. A set of lengths is complete when every string of bits starts with
one of its codes.
-/
namespace PETriage.Gzip

structure Code where
  /-- How many codes there are of each length, from one up to the longest. -/
  counts : List Nat
  /-- The symbols in the order of their codes. -/
  symbols : Array Nat

namespace Code

def longest (lengths : List Nat) : Nat := lengths.foldl max 0

def ofLengths (lengths : List Nat) : Code :=
  let sizes := (List.range (max 1 (longest lengths))).map (· + 1)
  { counts := sizes.map lengths.count
    symbols := (sizes.flatMap fun n =>
      (lengths.zipIdx.filter fun (m, _) => m == n).map (·.2)).toArray }

inductive Fill
  | incomplete
  | complete
  | overfull
  deriving DecidableEq, Repr

/-- Compares the codes with the strings of bits there are, `room` of the length before. -/
def fillFrom : Nat → List Nat → Fill
  | room, [] => if room == 0 then .complete else .incomplete
  | room, n :: rest => if 2 * room < n then .overfull else fillFrom (2 * room - n) rest

def fill (c : Code) : Fill := fillFrom 1 c.counts

/-- Reads a code bit by bit: `first` is the first code of the current length, `index` the place
of its symbol. Bits that start no code are corrupt. -/
def decodeFrom (symbols : Array Nat) :
    Nat → Nat → Nat → List Nat → Bits → Except ReadError (Nat × Bits)
  | _, _, _, [], _ => .error .corrupt
  | code, first, index, n :: rest, s => do
    let (b, s) ← s.bit
    let code := 2 * code + (if b then 1 else 0)
    let first := 2 * first
    if code < first + n then
      match symbols[index + (code - first)]? with
      | some symbol => return (symbol, s)
      | none => .error .corrupt
    else decodeFrom symbols code (first + n) (index + n) rest s

def decode (c : Code) (s : Bits) : Except ReadError (Nat × Bits) :=
  decodeFrom c.symbols 0 0 0 c.counts s

end Code
end PETriage.Gzip
