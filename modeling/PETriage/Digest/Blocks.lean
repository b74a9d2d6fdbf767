import PETriage.Bytes

/-!
# Messages cut into blocks

The digests here all read a message as blocks of sixty-four bytes: the message, a byte
with its highest bit set, zeros, and the length in bits as eight bytes. They differ in the
order of bytes in a word and in what a block does to their state.
-/
namespace PETriage.Digest

inductive ByteOrder
  | lowFirst
  | highFirst
  deriving DecidableEq, Repr

def ByteOrder.arrange {α : Type} : ByteOrder → List α → List α
  | lowFirst, xs => xs
  | highFirst, xs => xs.reverse

def blockSize : Nat := 64

/-- Zeros between the closing bit and the length. -/
def paddingZeros (size : Nat) : Nat := (119 - size % 64) % 64

def padded (order : ByteOrder) (b : ByteArray) : ByteArray :=
  b.push 0x80 ++ Bytes.zeros (paddingZeros b.size) ++
    Bytes.ofList (order.arrange (Bytes.unlittle 8 (8 * b.size)))

def wordAt (order : ByteOrder) (b : ByteArray) (i : Nat) : UInt32 :=
  let byte (k : Nat) : UInt32 := UInt32.ofNat (Bytes.byteAt b (i + k))
  match order with
  | .lowFirst => byte 0 ||| byte 1 <<< 8 ||| byte 2 <<< 16 ||| byte 3 <<< 24
  | .highFirst => byte 3 ||| byte 2 <<< 8 ||| byte 1 <<< 16 ||| byte 0 <<< 24

def blockWords (order : ByteOrder) (b : ByteArray) (base : Nat) : Array UInt32 :=
  Array.ofFn fun i : Fin 16 => wordAt order b (base + 4 * i.val)

/-- Takes the blocks of a padded message through a state, in order. -/
@[specialize]
def absorb {σ : Type} (order : ByteOrder) (step : σ → Array UInt32 → σ) (start : σ)
    (b : ByteArray) : σ :=
  let message := padded order b
  Nat.fold (message.size / blockSize)
    (fun i _ s => step s (blockWords order message (blockSize * i))) start

@[inline] def rotateLeft (x n : UInt32) : UInt32 := (x <<< n) ||| (x >>> (32 - n))
@[inline] def rotateRight (x n : UInt32) : UInt32 := (x >>> n) ||| (x <<< (32 - n))

/-- The hexadecimal digits of the state's words, byte by byte. -/
def hexOfWords (order : ByteOrder) (words : List UInt32) : String :=
  Bytes.toHex (Bytes.ofList (words.flatMap fun w => order.arrange (Bytes.unlittle 4 w.toNat)))

end PETriage.Digest
