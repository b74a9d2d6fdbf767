import PETriage.Json.Compare
import PETriage.Request.Chunks

/-!
# Reads with bounds of any kind

A source takes whole numbers alone. A size of chunks that is no whole number does no harm as
long as it is above all that is left, because then it is never asked of the source.
-/
namespace PETriage.Request

def Source.readGiven (s : Source) (offset length : Value) : Except ReadFault ByteArray :=
  match offset.whole?, length.whole? with
  | some m, some n => s.read 0 m n
  | _, _ => .error .notWhole

def Source.refusing (s : Source) (fault : ReadFault) : Source :=
  { s with read := fun _ _ _ => .error fault }

/-- A size of chunks for a read of this length, and the source that it is read from. -/
def chunkGiven (source : Source) (length : Int) (chunk : Value) : Source × Int :=
  match chunk.whole?, chunk.lesser (.int length) with
  | some n, _ => (source, n)
  | none, .ok (.int n) => (source, n)
  | none, _ => (source.refusing .notWhole, 1)

end PETriage.Request
