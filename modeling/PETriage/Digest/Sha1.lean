import PETriage.Digest.Blocks

/-!
# SHA-1

Five words of state, high byte first; the words of a block are stretched to eighty, and
each is mixed in by one step.
-/
namespace PETriage.Digest.Sha1

structure State where
  a : UInt32
  b : UInt32
  c : UInt32
  d : UInt32
  e : UInt32
  deriving DecidableEq, Repr

def start : State := ⟨0x67452301, 0xefcdab89, 0x98badcfe, 0x10325476, 0xc3d2e1f0⟩

def schedule (words : Array UInt32) : Array UInt32 :=
  Nat.fold 64
    (fun i _ (w : Array UInt32) =>
      w.push (rotateLeft
        (w.getD (i + 13) 0 ^^^ w.getD (i + 8) 0 ^^^ w.getD (i + 2) 0 ^^^ w.getD i 0) 1))
    words

/-- The round's mixing function and constant at step `i`. -/
@[inline] def mixed (s : State) (i : Nat) : UInt32 × UInt32 :=
  if i < 20 then ((s.b &&& s.c) ||| (~~~s.b &&& s.d), 0x5a827999)
  else if i < 40 then (s.b ^^^ s.c ^^^ s.d, 0x6ed9eba1)
  else if i < 60 then ((s.b &&& s.c) ||| (s.b &&& s.d) ||| (s.c &&& s.d), 0x8f1bbcdc)
  else (s.b ^^^ s.c ^^^ s.d, 0xca62c1d6)

def step (words : Array UInt32) (s : State) (i : Nat) : State :=
  let (f, k) := mixed s i
  ⟨rotateLeft s.a 5 + f + s.e + k + words.getD i 0, s.a, rotateLeft s.b 30, s.c, s.d⟩

def compress (s : State) (words : Array UInt32) : State :=
  let stretched := schedule words
  let t := Nat.fold 80 (fun i _ t => step stretched t i) s
  ⟨s.a + t.a, s.b + t.b, s.c + t.c, s.d + t.d, s.e + t.e⟩

def digest (b : ByteArray) : String :=
  let s := absorb .highFirst compress start b
  hexOfWords .highFirst [s.a, s.b, s.c, s.d, s.e]

end PETriage.Digest.Sha1
