import PETriage.Gzip.Code

/-!
# Compressed blocks read back

A stream is a row of blocks, the last one marked: bytes stored as they are, or literals
and references to earlier output, in codes that are fixed or that stand before the block.
-/
namespace PETriage.Gzip

/-- Base values and extra bits of the length symbols from 257 on. -/
def lengthSteps : List (Nat × Nat) := [
  (3, 0), (4, 0), (5, 0), (6, 0), (7, 0), (8, 0), (9, 0), (10, 0), (11, 1), (13, 1),
  (15, 1), (17, 1), (19, 2), (23, 2), (27, 2), (31, 2), (35, 3), (43, 3), (51, 3), (59, 3),
  (67, 4), (83, 4), (99, 4), (115, 4), (131, 5), (163, 5), (195, 5), (227, 5), (258, 0)]

/-- Base values and extra bits of the distance symbols. -/
def distanceSteps : List (Nat × Nat) := [
  (1, 0), (2, 0), (3, 0), (4, 0), (5, 1), (7, 1), (9, 2), (13, 2), (17, 3), (25, 3),
  (33, 4), (49, 4), (65, 5), (97, 5), (129, 6), (193, 6), (257, 7), (385, 7), (513, 8),
  (769, 8), (1025, 9), (1537, 9), (2049, 10), (3073, 10), (4097, 11), (6145, 11),
  (8193, 12), (12289, 12), (16385, 13), (24577, 13)]

/-- A base value with its extra bits added. -/
def stepped (steps : List (Nat × Nat)) (symbol : Nat) (s : Bits) :
    Except ReadError (Nat × Bits) :=
  match steps[symbol]? with
  | none => .error .corrupt
  | some (base, extra) => do
    let (more, s) ← s.number extra
    return (base + more, s)

/-- Repeats earlier output byte by byte, so that it may repeat what it has just written. -/
def copyBack (out : Array UInt8) (distance : Nat) : Nat → Array UInt8
  | 0 => out
  | n + 1 => copyBack (out.push (out.getD (out.size - distance) 0)) distance n

def endOfBlock : Nat := 256

/-- Literals and references up to the end of the block. -/
def symbolsFrom (literals distances : Code) :
    Nat → Array UInt8 → Bits → Except ReadError (Array UInt8 × Bits)
  | 0, _, _ => .error .truncated
  | fuel + 1, out, s => do
    let (symbol, s) ← literals.decode s
    if symbol < endOfBlock then
      symbolsFrom literals distances fuel (out.push (UInt8.ofNat symbol)) s
    else if symbol == endOfBlock then return (out, s)
    else
      let (length, s) ← stepped lengthSteps (symbol - 257) s
      let (slot, s) ← distances.decode s
      let (distance, s) ← stepped distanceSteps slot s
      if out.size < distance then .error .corrupt
      else symbolsFrom literals distances fuel (copyBack out distance length) s

def fixedLiterals : Code := .ofLengths
  (List.replicate 144 8 ++ List.replicate 112 9 ++ List.replicate 24 7 ++ List.replicate 8 8)

def fixedDistances : Code := .ofLengths (List.replicate 32 5)

/-- Bytes as they are, after their number and its complement. -/
def storedBlock (out : Array UInt8) (s : Bits) : Except ReadError (Array UInt8 × Bits) := do
  let (sizes, s) ← s.aligned.take 4
  let n := numberOf (sizes.take 2)
  if n + numberOf (sizes.drop 2) != 0xFFFF then .error .corrupt
  else
    let (body, s) ← s.take n
    return (out ++ body.toArray, s)

/-- The order in which the lengths of the code for lengths are given. -/
def lengthOrder : List Nat := [16, 17, 18, 0, 8, 7, 9, 6, 10, 5, 11, 4, 12, 3, 13, 2, 14, 1, 15]

def orderedLengths : List Nat → Bits → Except ReadError ((List (Nat × Nat)) × Bits)
  | [], s => .ok ([], s)
  | symbol :: rest, s => do
    let (n, s) ← s.number 3
    let (others, s) ← orderedLengths rest s
    return ((symbol, n) :: others, s)

/-- The code for lengths. One without any symbol reads every bit as a length of zero. -/
def lengthCode (given : List (Nat × Nat)) : Except ReadError (Option Code) :=
  let lengths :=
    (List.range 19).map fun symbol => ((given.find? (·.1 == symbol)).map (·.2)).getD 0
  if lengths.all (· == 0) then .ok none
  else
    let code := Code.ofLengths lengths
    if code.fill = .complete then .ok (some code) else .error .corrupt

/-- What a symbol of the code for lengths adds: a length, or a repetition. -/
def lengthsOf (before : List Nat) (symbol : Nat) (s : Bits) : Except ReadError (List Nat × Bits) :=
  if symbol < 16 then .ok ([symbol], s)
  else if symbol == 16 then do
    let (n, s) ← s.number 2
    match before with
    | [] => .error .corrupt
    | last :: _ => return (List.replicate (3 + n) last, s)
  else if symbol == 17 then do
    let (n, s) ← s.number 3
    return (List.replicate (3 + n) 0, s)
  else do
    let (n, s) ← s.number 7
    return (List.replicate (11 + n) 0, s)

def lengthSymbol (code : Option Code) (s : Bits) : Except ReadError (Nat × Bits) :=
  match code with
  | some c => c.decode s
  | none => do
    let (_, s) ← s.bit
    return (0, s)

/-- The lengths of both codes, the latest first, until there are `total`. -/
def lengthsFrom (code : Option Code) (total : Nat) :
    Nat → List Nat → Bits → Except ReadError (List Nat × Bits)
  | 0, _, _ => .error .truncated
  | fuel + 1, before, s =>
    if before.length == total then .ok (before.reverse, s)
    else do
      let (symbol, s) ← lengthSymbol code s
      let (more, s) ← lengthsOf before symbol s
      if total < before.length + more.length then .error .corrupt
      else lengthsFrom code total fuel (more.reverse ++ before) s

/-- A code may have gaps only when it has a single symbol of one bit. -/
def usable (c : Code) : Bool :=
  match c.fill with
  | .complete => true
  | .overfull => false
  | .incomplete => c.counts == [1]

/-- A code for distances may also have no symbol at all. -/
def usableDistances (c : Code) : Bool := usable c || c.counts == [0]

def blockCodes (s : Bits) : Except ReadError ((Code × Code) × Bits) := do
  let (literalCount, s) ← s.number 5
  let (distanceCount, s) ← s.number 5
  let (lengthCount, s) ← s.number 4
  let literalCount := literalCount + 257
  let distanceCount := distanceCount + 1
  if 286 < literalCount ∨ 30 < distanceCount then .error .corrupt
  else
    let (given, s) ← orderedLengths (lengthOrder.take (lengthCount + 4)) s
    let code ← lengthCode given
    let total := literalCount + distanceCount
    let (lengths, s) ← lengthsFrom code total (total + 1) [] s
    let literals := Code.ofLengths (lengths.take literalCount)
    let distances := Code.ofLengths (lengths.drop literalCount)
    if lengths.getD endOfBlock 0 == 0 || !usable literals || !usableDistances distances then
      .error .corrupt
    else return ((literals, distances), s)

def block (kind : Nat) (out : Array UInt8) (s : Bits) : Except ReadError (Array UInt8 × Bits) :=
  if kind == 0 then storedBlock out s
  else if kind == 1 then symbolsFrom fixedLiterals fixedDistances (s.count + 1) out s
  else if kind == 2 then do
    let ((literals, distances), s) ← blockCodes s
    symbolsFrom literals distances (s.count + 1) out s
  else .error .corrupt

def blocksFrom : Nat → Array UInt8 → Bits → Except ReadError (Array UInt8 × Bits)
  | 0, _, _ => .error .truncated
  | fuel + 1, out, s => do
    let (last, s) ← s.bit
    let (kind, s) ← s.number 2
    let (out, s) ← block kind out s
    if last then return (out, s) else blocksFrom fuel out s

/-- The bytes of a stream, and the bytes after it. -/
def inflate (xs : List UInt8) : Except ReadError (List UInt8 × List UInt8) := do
  let s := Bits.ofBytes xs
  let (out, s) ← blocksFrom (s.count + 1) #[] s
  return (out.toList, s.rest)

end PETriage.Gzip
