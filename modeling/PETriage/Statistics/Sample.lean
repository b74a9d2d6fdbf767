import PETriage.Statistics.Entropy

/-!
# Statistics over a whole span or a sample of it

A large span may be represented by three windows of it, at its front, its middle and its
end. `Measure` is what is reported for a span: both statistics, how many bytes they cover
and whether those are fewer than all.
-/
namespace PETriage.Statistics

def middleOf (length : Nat) (size : Int) : Int := (length / 2 : Nat) - Int.fdiv size 2

/-- The span itself when three windows of `size` cover it, else the three windows. -/
def sample (b : ByteArray) (size : Int) : ByteArray :=
  if (b.size : Int) ≤ size * 3 then b
  else
    let middle := middleOf b.size size
    Bytes.window b 0 size ++ Bytes.window b middle (middle + size) ++
      Bytes.window b (b.size - size) b.size

structure Measure where
  entropy : Float
  chiSquare : Float
  analyzed : Nat
  sampled : Bool

structure Limits where
  threshold : Int := 1048576
  sampleSize : Int := 102400
  deriving DecidableEq, Repr

def judged (b : ByteArray) (whole : Bool) (limits : Limits) : ByteArray :=
  if !whole && min limits.threshold (3 * limits.sampleSize) < b.size then
    sample b limits.sampleSize
  else b

def measure (b : ByteArray) (whole : Bool) (limits : Limits) : Measure :=
  let span := judged b whole limits
  let counts := Histogram.ofBytes span
  ⟨entropyOf counts span.size, chiSquareOf counts span.size, span.size, span.size < b.size⟩

end PETriage.Statistics
