import PETriage.External.Analyzer
import PETriage.Json.Display
import PETriage.Loader.Imports
import PETriage.Loader.Resources

/-!
# A loader's view as a payload

Keys with capitals inside, a nested header, and most numbers as a pair of hexadecimal and
decimal text and value.
-/
namespace PETriage.Loader

open Image (DosHeader FileHeader OptionalHeader)

def pair (n : Nat) : Value := .object [("hex", .str (Number.hex n)), ("decimal", .nat n)]

def dosValue (h : DosHeader) : Value := .object [
  ("e_magic", .str h.magic),
  ("e_lfanew", pair h.headerOffset),
  ("e_cblp", .nat h.lastPageBytes),
  ("e_cp", .nat h.pages),
  ("e_crlc", .nat h.relocations),
  ("e_cparhdr", .nat h.headerParagraphs),
  ("e_minalloc", .nat h.minParagraphs),
  ("e_maxalloc", .nat h.maxParagraphs),
  ("e_ss", .nat h.initialSS),
  ("e_sp", .nat h.initialSP),
  ("e_csum", .nat h.checksum),
  ("e_ip", .nat h.initialIP),
  ("e_cs", .nat h.initialCS),
  ("e_lfarlc", .nat h.relocationTable),
  ("e_ovno", .nat h.overlay)]

def fileValue (h : FileHeader) : Value := .object [
  ("machine", pair h.machineCode),
  ("numberOfSections", .nat h.sectionCount),
  ("timeDateStamp", .nat h.timeDateStamp),
  ("pointerToSymbolTable", .nat h.symbolTable),
  ("numberOfSymbols", .nat h.symbolCount),
  ("sizeOfOptionalHeader", .nat h.optionalHeaderSize),
  ("characteristics", pair h.characteristics)]

def optionalValue (h : OptionalHeader) : Value := .object <| ([
  ("magic", .str (Number.hex h.magicCode)),
  ("majorLinkerVersion", .nat h.majorLinkerVersion),
  ("minorLinkerVersion", .nat h.minorLinkerVersion),
  ("sizeOfCode", .nat h.sizeOfCode),
  ("sizeOfInitializedData", .nat h.sizeOfInitializedData),
  ("sizeOfUninitializedData", .nat h.sizeOfUninitializedData),
  ("addressOfEntryPoint", pair h.entryPoint),
  ("baseOfCode", pair h.baseOfCode),
  ("imageBase", pair h.imageBase),
  ("sectionAlignment", .nat h.sectionAlignment),
  ("fileAlignment", .nat h.fileAlignment),
  ("majorOperatingSystemVersion", .nat h.majorSystemVersion),
  ("minorOperatingSystemVersion", .nat h.minorSystemVersion),
  ("majorImageVersion", .nat h.majorImageVersion),
  ("minorImageVersion", .nat h.minorImageVersion),
  ("majorSubsystemVersion", .nat h.majorSubsystemVersion),
  ("minorSubsystemVersion", .nat h.minorSubsystemVersion),
  ("win32VersionValue", .nat h.win32Version),
  ("sizeOfImage", .nat h.sizeOfImage),
  ("sizeOfHeaders", .nat h.sizeOfHeaders),
  ("checkSum", pair h.checksum),
  ("subsystem", .nat h.subsystemCode),
  ("dllCharacteristics", pair h.dllCharacteristics),
  ("sizeOfStackReserve", .nat h.stackReserve),
  ("sizeOfStackCommit", .nat h.stackCommit),
  ("sizeOfHeapReserve", .nat h.heapReserve),
  ("sizeOfHeapCommit", .nat h.heapCommit),
  ("loaderFlags", .nat h.loaderFlags),
  ("numberOfRvaAndSizes", .nat h.directoryCount)] : Fields) ++
  (h.baseOfData.map fun n => (.ofString "baseOfData", pair n)).toList

def slotValue (index : Nat) (s : Slot) : Value := .object [
  ("index", .nat index),
  ("name", .str (directoryEntries.getD index "")),
  ("virtualAddress", pair s.address),
  ("size", .nat s.size)]

/-- The header of a payload; without an optional header there are no directories. -/
def headerValue (dos : DosHeader) (file : FileHeader) (optional : Option OptionalHeader)
    (slots : List Slot) : Value := .object <|
  ([("dos", dosValue dos), ("file", fileValue file)] : Fields) ++
    match optional with
    | none => []
    | some h =>
      [("optional", optionalValue h), ("dataDirectories", .list (slots.mapIdx slotValue))]

/-- Byte values in the order in which they first occur, with their counts. -/
def occurrences (b : ByteArray) : List (Nat × Nat) :=
  let counts := Statistics.Histogram.ofBytes b
  let order := b.data.foldl
    (fun (seen, order) x =>
      if seen.getD x.toNat false then (seen, order)
      else (seen.setIfInBounds x.toNat true, x.toNat :: order))
    (Array.replicate 256 false, ([] : List Nat))
  order.2.reverse.map fun x => (x, counts.toArray.getD x 0)

/-- Shannon entropy in bits per byte, summed in the order of first occurrence. -/
def entropyByOccurrence (b : ByteArray) : Float :=
  (occurrences b).foldl
    (fun h (_, count) =>
      let p := Float.ofNat count / Float.ofNat b.size
      h - p * (Float.log p / Float.log 2.0)) 0.0

/-- The numbers of a section, with its name and statistics. -/
def sectionFields (s : Section) (entropy chiSquare : Float) : Value := .object [
  ("name", .str (textOf s.name)),
  ("virtualAddress", pair s.virtualAddress),
  ("virtualSize", pair s.virtualSize),
  ("rawSize", pair s.rawSize),
  ("pointerToRawData", pair s.rawPointer),
  ("characteristics", pair s.characteristics),
  ("entropy", .float entropy),
  ("chiSquared", .float chiSquare)]

def sectionValue (v : View) (s : Section) : Value :=
  let b := v.sectionData s
  sectionFields s (entropyByOccurrence b) (Statistics.chiSquare b)

def importValue (i : Report.Import) : Value := .object [
  ("dll", .str i.library),
  ("functions", .list (i.functions.map .str))]

def resourceValue (r : Resource) : Value := .object [
  ("type", .str r.type),
  ("language", .object [
    ("id", .nat r.language),
    ("sublang", .nat r.sublanguage),
    ("name", .str ((languages.name? r.language).getD "Unknown"))]),
  ("size", .nat r.size),
  ("entropy", .float r.entropy),
  ("sha256", .str r.sha256)]

inductive PayloadError
  | load (error : LoadError)
  | resourceWithoutData
  deriving DecidableEq, Repr

def PayloadError.message : PayloadError → String
  | load error => Display.quoted error.message
  | resourceWithoutData => "'ResourceDirEntryData' object has no attribute 'data'"

/-- What the directories of an image name: the libraries that it imports and its resources. -/
def View.directories (v : View) : Except ResourceError (List Report.Import × List Resource) :=
  let (imports, t) := v.imports.run v.start
  (v.resources.run.run t).1.map fun resources => (imports, resources)

def payload (b : ByteArray) : Except PayloadError Value := do
  let v ← (View.ofBytes b).mapError .load
  let (imports, resources) ← v.directories.mapError fun
    | .unreachable => PayloadError.load .unreachable
    | .noData => .resourceWithoutData
  return .object [
    ("format", .str "pe"),
    ("fileSize", .nat b.size),
    ("header", headerValue v.dos v.file (some v.optional) v.slots),
    ("sections", .list (v.sections.map (sectionValue v))),
    ("imports", .list (imports.map importValue)),
    ("resources", .list (resources.map resourceValue))]

def analyzerName : String := "pefile"

def analyzer (available : Bool) : External.Analyzer where
  name := analyzerName
  available := available
  analyze b :=
    match payload b with
    | .ok v => .payload v
    | .error e => .raised e.message

end PETriage.Loader
