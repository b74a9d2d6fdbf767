import PETriage.Request.Trace

/-!
# Reading in chunks

A stretch of a source, or all of it, is read in chunks of a bounded size one after the
other. Before each one the request is asked for; a read that gives nothing ends the loop,
so that it always ends.
-/
namespace PETriage.Request

/-- The pieces put together, the latest given first. -/
def joinReversed (pieces : List ByteArray) : ByteArray :=
  pieces.reverse.foldl (· ++ ·) ByteArray.empty

/-- Reads on from `done`, having taken `pieces`, the latest first. -/
def chunksFrom (w : Surroundings) (base length chunkSize : Int)
    (onChunk : Int → Int → Step Unit) (done : Int) (pieces : List ByteArray) :
    Step (List ByteArray) :=
  if done < length then do
    checkWanted w (base + done)
    let piece ← readAt w (base + done) (min chunkSize (length - done))
    if piece.size = 0 then return pieces
    else
      let total := done + piece.size
      Step.note (.gained total length)
      onChunk total length
      pause
      chunksFrom w base length chunkSize onChunk (done + piece.size) (piece :: pieces)
  else return pieces
  termination_by (length - done).toNat
  decreasing_by omega

/-- The part of a stretch that lies before the end of a source. -/
def clippedLength (size : Nat) (offset length : Int) : Int := max 0 (min length (size - offset))

def readChunked (w : Surroundings) (offset length chunkSize : Int)
    (onChunk : Int → Int → Step Unit) : Step ByteArray := do
  let pieces ←
    chunksFrom w offset (clippedLength w.source.size offset length) chunkSize onChunk 0 []
  return joinReversed pieces

/-- The pieces of a source, the latest first, up to the end or a failure. -/
def piecesFrom (w : Surroundings) (chunkSize offset : Int) (pieces : List ByteArray) :
    Step (List ByteArray × Option Stop) :=
  if offset < w.source.size then do
    let r ← Step.attempt do
      checkWanted w offset
      readAt w offset (min chunkSize (w.source.size - offset))
    match r with
    | .error stop => return (pieces, some stop)
    | .ok piece =>
      if piece.size = 0 then return (pieces, none)
      else piecesFrom w chunkSize (offset + piece.size) (piece :: pieces)
  else return (pieces, none)
  termination_by (w.source.size - offset).toNat
  decreasing_by omega

/-- The pieces of a whole source in order, and what stopped them. -/
def pieces (w : Surroundings) (chunkSize : Int) : Step (List ByteArray × Option Stop) := do
  let (taken, failed) ← piecesFrom w chunkSize 0 []
  return (taken.reverse, failed)

/-- The pieces of a source that is read to its end. -/
def allPieces (w : Surroundings) (chunkSize : Int) : Step (List ByteArray) := do
  let (taken, failed) ← pieces w chunkSize
  match failed with
  | none => return taken
  | some stop => throw stop

end PETriage.Request
