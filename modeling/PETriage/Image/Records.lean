import PETriage.Image.Names
import PETriage.Text.Pieces

/-!
# Header records of an image

What the headers of an image say, with codes named. The records are the same whether the
headers were decoded from bytes or handed over in a payload; sizes and offsets are never
negative.
-/
namespace PETriage.Image

structure DosHeader where
  magic : String := "0x0000"
  headerOffset : Nat := 0
  lastPageBytes : Nat := 0
  pages : Nat := 0
  relocations : Nat := 0
  headerParagraphs : Nat := 0
  minParagraphs : Nat := 0
  maxParagraphs : Nat := 0
  initialSS : Nat := 0
  initialSP : Nat := 0
  checksum : Nat := 0
  initialIP : Nat := 0
  initialCS : Nat := 0
  relocationTable : Nat := 0
  overlay : Nat := 0
  deriving DecidableEq, Repr

structure FileHeader where
  machine : Text := unknown
  machineCode : Nat := 0
  sectionCount : Nat := 0
  timeDateStamp : Nat := 0
  timestamp : String := unknown
  symbolTable : Nat := 0
  symbolCount : Nat := 0
  optionalHeaderSize : Nat := 0
  characteristics : Nat := 0
  flags : List String := []
  deriving DecidableEq, Repr

/-- Only the 32-bit layout has a base of data. -/
structure OptionalHeader where
  magic : String := unknown
  magicCode : Nat := 0
  majorLinkerVersion : Nat := 0
  minorLinkerVersion : Nat := 0
  sizeOfCode : Nat := 0
  sizeOfInitializedData : Nat := 0
  sizeOfUninitializedData : Nat := 0
  entryPoint : Nat := 0
  baseOfCode : Nat := 0
  baseOfData : Option Nat := none
  imageBase : Nat := 0
  sectionAlignment : Nat := 0
  fileAlignment : Nat := 0
  majorSystemVersion : Nat := 0
  minorSystemVersion : Nat := 0
  majorImageVersion : Nat := 0
  minorImageVersion : Nat := 0
  majorSubsystemVersion : Nat := 0
  minorSubsystemVersion : Nat := 0
  win32Version : Nat := 0
  sizeOfImage : Nat := 0
  sizeOfHeaders : Nat := 0
  checksum : Nat := 0
  subsystem : String := unknown
  subsystemCode : Nat := 0
  dllCharacteristics : Nat := 0
  stackReserve : Nat := 0
  stackCommit : Nat := 0
  heapReserve : Nat := 0
  heapCommit : Nat := 0
  loaderFlags : Nat := 0
  directoryCount : Nat := 0
  deriving DecidableEq, Repr

structure DataDirectory where
  name : Text
  address : Nat := 0
  size : Nat := 0
  deriving DecidableEq, Repr

end PETriage.Image
