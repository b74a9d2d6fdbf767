import PETriage.Digest.Hashes
import PETriage.Report.Printed

/-!
# The report of a request

What became of one file: whether it is an image, which way it was analyzed, and the
analysis, the hashes or the failure.
-/
namespace PETriage.Request

open Report (Analysis)

inductive Strategy
  | direct
  | external
  | degraded
  | cached
  | notApplicable
  | failed
  deriving DecidableEq, Repr

def Strategy.name : Strategy → String
  | direct => "direct"
  | external => "external"
  | degraded => "degraded"
  | cached => "cached"
  | notApplicable => "not_applicable"
  | failed => "failed"

structure ScanReport where
  fileSize : Nat
  isImage : Bool := false
  isLarge : Bool := false
  strategy : Strategy := .notApplicable
  analysis : Option Analysis := none
  hashes : Option Hashes := none
  error : Option Text := none

namespace ScanReport

/-- The report of a request that stopped: an image keeps an analysis with nothing but the
error. -/
def stopped (fileSize : Nat) (isImage isLarge : Bool) (message : Text) : ScanReport where
  fileSize := fileSize
  isImage := isImage
  isLarge := isLarge
  strategy := .failed
  analysis := if isImage then some (.failed fileSize message) else none
  error := some message

def toValue (r : ScanReport) : Value := .object [
  ("file_size", .nat r.fileSize),
  ("is_pe", .bool r.isImage),
  ("is_large_file", .bool r.isLarge),
  ("strategy", .str r.strategy.name),
  ("analysis", .orNull Analysis.toValue r.analysis),
  ("hashes", .orNull Hashes.toValue r.hashes),
  ("error", .orNull .str r.error)]

end ScanReport
end PETriage.Request
