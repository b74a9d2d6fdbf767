import PETriage.Digest.Crc32
import PETriage.Gzip.Inflate

/-!
# Compressed files

A file is a row of members, with zeros between them; each has a header, a stream of blocks
and a check on what they gave. `compress` writes one member with its bytes stored as they
are, `decompress` reads any file.
-/
namespace PETriage.Gzip

def takeBytes (n : Nat) (xs : List UInt8) : Except ReadError (List UInt8 × List UInt8) :=
  if n ≤ xs.length then .ok (xs.take n, xs.drop n) else .error .truncated

/-- What follows the first zero byte; nothing follows where there is none. -/
def afterZero (xs : List UInt8) : List UInt8 := (xs.dropWhile (· != 0)).drop 1

def hasFlag (flags : UInt8) (bit : Nat) : Bool := flags.toNat.testBit bit

def dropOptional (flags : UInt8) (xs : List UInt8) : Except ReadError (List UInt8) := do
  let xs ←
    if hasFlag flags 2 then do
      let (size, xs) ← takeBytes 2 xs
      let (_, xs) ← takeBytes (numberOf size) xs
      pure xs
    else pure xs
  let xs := if hasFlag flags 3 then afterZero xs else xs
  let xs := if hasFlag flags 4 then afterZero xs else xs
  if hasFlag flags 1 then do
    let (_, xs) ← takeBytes 2 xs
    return xs
  else return xs

def magic : List UInt8 := [0x1F, 0x8B]
def deflateMethod : UInt8 := 8

def dropHeader (xs : List UInt8) : Except ReadError (List UInt8) :=
  if xs.take 2 != magic then .error .notCompressed
  else do
    let (fixed, xs) ← takeBytes 8 (xs.drop 2)
    if fixed.getD 0 0 != deflateMethod then .error .notCompressed
    else dropOptional (fixed.getD 1 0) xs

def check (body : List UInt8) : List UInt8 :=
  Bytes.unlittle 4 (Digest.Crc32.crc32 (Bytes.ofList body)).toNat ++
    Bytes.unlittle 4 (body.length % 0x100000000)

def member (xs : List UInt8) : Except ReadError (List UInt8 × List UInt8) := do
  let xs ← dropHeader xs
  let (body, xs) ← inflate xs
  let (trailer, xs) ← takeBytes 8 xs
  if trailer != check body then .error .checkFailed
  else return (body, xs.dropWhile (· == 0))

def membersFrom : Nat → List UInt8 → Except ReadError (List UInt8)
  | 0, _ => .error .truncated
  | fuel + 1, xs =>
    if xs.isEmpty then .ok []
    else do
      let (body, rest) ← member xs
      let others ← membersFrom fuel rest
      return body ++ others

def decompress (xs : List UInt8) : Except ReadError (List UInt8) :=
  membersFrom (xs.length + 1) xs

def storedLimit : Nat := 65535

def storedHeader (last : Bool) (n : Nat) : List UInt8 :=
  (if last then 1 else 0) :: (Bytes.unlittle 2 n ++ Bytes.unlittle 2 (0xFFFF - n))

/-- Blocks of at most `storedLimit` bytes, the last one marked. -/
def storedBlocks (xs : List UInt8) : List UInt8 :=
  if xs.length ≤ storedLimit then storedHeader true xs.length ++ xs
  else storedHeader false storedLimit ++ xs.take storedLimit ++ storedBlocks (xs.drop storedLimit)
  termination_by xs.length
  decreasing_by
    simp only [List.length_drop, storedLimit] at *
    omega

def header : List UInt8 := magic ++ [deflateMethod, 0, 0, 0, 0, 0, 0, 255]

def compress (xs : List UInt8) : List UInt8 := header ++ storedBlocks xs ++ check xs

end PETriage.Gzip
