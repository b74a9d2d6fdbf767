import PETriage.Digest.Md5
import PETriage.Digest.Sha1
import PETriage.Digest.Sha256
import PETriage.Json.Value

/-!
# Hashes of a file

The three digests that identify a file, and the object they are reported as.
-/
namespace PETriage

/-- Names and digests, in the order in which they are reported. -/
abbrev Hashes := List (String × String)

namespace Hashes

def ofBytes (b : ByteArray) : Hashes :=
  [("md5", Digest.Md5.digest b), ("sha1", Digest.Sha1.digest b), ("sha256", Digest.Sha256.digest b)]

def joined (pieces : List ByteArray) : ByteArray := pieces.foldl (· ++ ·) ByteArray.empty

/-- The hashes of a file in pieces are those of the pieces put together. -/
def ofPieces (pieces : List ByteArray) : Hashes := ofBytes (joined pieces)

def toValue (h : Hashes) : Value := .object (h.map fun (name, digest) => (name, .str digest))

end Hashes
end PETriage
