import PETriage.Image.Records
import PETriage.Json.Value
import PETriage.Number.Reading

/-!
# The analysis of an image

What both ways of analysing an image arrive at and every consumer works with. Statistics
are texts of fixed precision; an analysis that carries an error is a degraded one.
-/
namespace PETriage.Report

structure SectionEntry where
  name : Text
  address : String := "0x00000000"
  virtualSize : Int := 0
  rawSize : Int := 0
  entropy : String := "0.000000"
  chiSquare : String := "0.00"
  characteristics : Int := 0
  deriving DecidableEq, Repr

namespace SectionEntry

def failedName : String := "Error processing section"

/-- Stands for a section that could not be processed. -/
def unprocessed : SectionEntry := { name := failedName }

/-- Stands for the sections that were left out. -/
def skipped (count : Int) : SectionEntry :=
  { name := .ofString ("[" ++ Number.decimal count ++ " more sections - skipped for performance]") }

def isPlaceholder (s : SectionEntry) : Bool :=
  s.name == failedName || s.name.head.toList.head? == some '['

def entropyValue? (s : SectionEntry) : Option Float := Number.readReal? s.entropy.toList
def addressValue? (s : SectionEntry) : Option Int := Number.readHex? s.address.toList

def flags (s : SectionEntry) : List String := Image.sectionFlags.decode s.characteristics

def isWritableExecutable (s : SectionEntry) : Bool :=
  Image.hasBit s.characteristics Image.executeFlag && Image.hasBit s.characteristics Image.writeFlag

end SectionEntry

/-- An imported library; its functions may be a placeholder when the table was not walked. -/
structure Import where
  library : Text
  functions : List Text
  deriving DecidableEq, Repr

structure Resource where
  type : Text
  language : Text
  size : Nat
  entropy : String
  hash : Text
  deriving DecidableEq, Repr

structure Analysis where
  fileSize : Int
  machine : Text := Image.unknown
  timestamp : Text := Image.unknown
  sections : List SectionEntry := []
  imports : Option (List Import) := none
  resources : Option (List Resource) := none
  dos : Option Image.DosHeader := none
  file : Option Image.FileHeader := none
  optional : Option Image.OptionalHeader := none
  directories : List Image.DataDirectory := []
  error : Option Text := none
  payload : Option Fields := none

namespace Analysis

/-- Nothing but the size of the file and what went wrong. -/
def failed (fileSize : Int) (error : Text) : Analysis :=
  { fileSize := fileSize, error := some error }

def isDegraded (a : Analysis) : Bool := a.error.isSome

def samePayload : Option Fields → Option Fields → Bool
  | none, none => true
  | some a, some b => Value.sameFields a b
  | _, _ => false

instance : BEq Analysis where
  beq a b := a.fileSize == b.fileSize && a.machine == b.machine && a.timestamp == b.timestamp &&
    a.sections == b.sections && a.imports == b.imports && a.resources == b.resources &&
    a.dos == b.dos && a.file == b.file && a.optional == b.optional &&
    a.directories == b.directories && a.error == b.error && samePayload a.payload b.payload

end Analysis
end PETriage.Report
