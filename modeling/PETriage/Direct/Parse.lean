import PETriage.Config
import PETriage.Image.Headers
import PETriage.Report.Records
import PETriage.Text.Search

/-!
# Direct analysis of a buffer

Headers and one measure per section, straight from the bytes of a file or of its front. A
section whose header lies past the buffer fails alone; sections over the cap are counted
and left out. The import table is not walked: an image that has one gets a hint.
-/
namespace PETriage.Direct

open Image (SectionHeader SectionRow Headers HeaderError)
open Statistics (Measure)

inductive SectionResult
  | measured (header : SectionHeader) (measure : Measure)
  | unmeasured (header : SectionHeader) (reason : String)
  | failed (index : Nat) (reason : String)

def SectionResult.error? : SectionResult → Option String
  | measured .. => none
  | unmeasured _ reason => some reason
  | failed index reason => some ("section " ++ Number.decimal index ++ ": " ++ reason)

structure Request where
  fileSize : Option Int := none
  largeFile : Bool := false
  forceFull : Bool := false
  sectionCap : Option Int := none

structure Result where
  fileSize : Int
  headers : Headers
  sections : List SectionResult
  skipped : Nat
  imports : Option (List Report.Import)
  largeFile : Bool

def sectionSpan (b : ByteArray) (h : SectionHeader) : ByteArray :=
  b.extract h.rawPointer (h.rawPointer + h.rawSize)

def sectionResult (config : Config) (b : ByteArray) (whole : Bool) (index : Nat) :
    SectionRow → SectionResult
  | .header h =>
    match config.measure (sectionSpan b h) whole with
    | .ok m => .measured h m
    | .error reason => .unmeasured h reason
  | .beyond offset => .failed index ((SectionRow.beyond offset).error?.getD "")

def importHint : Report.Import :=
  ⟨"Import information available", ["Use detailed analysis for function names"]⟩

/-- The section is named for imports or covers the import directory. -/
def holdsImports (d : Image.DataDirectory) : SectionRow → Bool
  | .beyond _ => false
  | .header h =>
    Text.occursIn ".idata" h.name || Text.occursIn "IMPORT" h.name ||
      (h.virtualAddress ≤ d.address && d.address + d.size ≤ h.virtualAddress + h.virtualSize)

def importsOf (headers : Headers) (rows : List SectionRow) : Option (List Report.Import) :=
  match headers.directories.find? (·.name == Text.ofString Image.importTable) with
  | none => none
  | some d =>
    if d.address == 0 || d.size == 0 then none
    else if rows.any (holdsImports d) then some [importHint] else none

def sectionLimit (config : Config) : Option Int → Int
  | none => config.maxSections
  | some cap => min config.maxSections cap

def parseUnder (config : Config) (limit : Int) (b : ByteArray) (request : Request) :
    Except HeaderError Result := do
  let headers ← Headers.decode b
  let rows := headers.sectionRows b limit
  let whole := request.forceFull || !request.largeFile
  let sections := rows.mapIdx (sectionResult config b whole)
  return {
    fileSize := request.fileSize.getD b.size
    headers := headers
    sections := sections
    skipped := headers.file.sectionCount - sections.length
    imports := if request.largeFile then none else importsOf headers rows
    largeFile := request.largeFile }

def parse (config : Config) (b : ByteArray) (request : Request) : Except HeaderError Result :=
  parseUnder config (sectionLimit config request.sectionCap) b request

inductive Fault
  | header (error : HeaderError)
  | limit (reason : String)

def parseGiven (config : Config) (cap : Option Value) (b : ByteArray) (request : Request) :
    Except Fault Result :=
  match config.loose, cap with
  | [], none => (parse config b { request with sectionCap := none }).mapError .header
  | [], some (.int n) => (parse config b { request with sectionCap := some n }).mapError .header
  | _, _ => do
    let headers ← (Headers.decode b).mapError .header
    let limit ← (config.rowLimit cap headers.file.sectionCount).mapError .limit
    (parseUnder config limit b request).mapError .header

end PETriage.Direct
