import PETriage.Bytes

/-!
# Sources of bytes

A source has a size and answers reads of a length from an offset. It may answer with fewer
bytes than were asked for, with none, or not at all, and differently each time: a read is
given its number.
-/
namespace PETriage.Request

inductive ReadFault
  | device (reason : String)
  | negativeOffset
  | farOffset
  | negativeLength
  | longLength
  | notWhole
  | memoryExhausted
  deriving DecidableEq, Repr

def ReadFault.message : ReadFault → String
  | device reason => reason
  | negativeOffset => "[Errno 22] Invalid argument"
  | farOffset => "cannot fit \x27int\x27 into an offset-sized integer"
  | negativeLength => "read length must be non-negative or -1"
  | longLength => "cannot fit \x27int\x27 into an index-sized integer"
  | notWhole => "slice indices must be integers or None or have an __index__ method"
  | memoryExhausted => ""

structure Source where
  size : Nat
  name : String
  read : Nat → Int → Int → Except ReadFault ByteArray

namespace Source

def memoryName : String := "<memory>"

/-- Bytes in memory; ends of a window may count back from their end. -/
def ofBytes (b : ByteArray) (name : String := memoryName) : Source where
  size := b.size
  name := name
  read _ offset length := .ok (Bytes.window b offset (offset + length))

/-- Offsets from here on are out of a file's reach. -/
def fileReach : Nat := 0x8000000000000000

/-- The longest length that a buffer can have at all. -/
def longestLength : Nat := 0x7FFFFFFFFFFFFFDE

/-- No memory holds a buffer of this length. -/
def memoryLimit : Nat := 0x4000000000

/-- What a file answers: a length of minus one means all that is left. -/
def fileWindow (b : ByteArray) (offset length : Int) : Except ReadFault ByteArray :=
  if offset < -fileReach ∨ fileReach ≤ offset then .error .farOffset
  else if offset < 0 then .error .negativeOffset
  else if length < -fileReach ∨ longestLength < length then .error .longLength
  else if length < -1 then .error .negativeLength
  else if memoryLimit ≤ length then .error .memoryExhausted
  else if length = -1 then .ok (b.extract offset.toNat b.size)
  else .ok (b.extract offset.toNat (offset + length).toNat)

def ofFile (b : ByteArray) (name : String) : Source where
  size := b.size
  name := name
  read _ := fileWindow b

/-- The bytes between two offsets of a source that ends with zeros. -/
def padded (b : ByteArray) (offset : Int) (length : Nat) : ByteArray :=
  let held := Bytes.window b offset (offset + length)
  held ++ Bytes.zeros (length - held.size)

end Source
end PETriage.Request
