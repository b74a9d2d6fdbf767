import PETriage.Direct.Parse
import PETriage.Field.Catalog
import PETriage.Image.Timestamp
import PETriage.Json.Copy
import PETriage.Json.Display
import PETriage.Report.Printed

/-!
# Every result as an analysis

The one place where the result of the direct parser, the payload of an external module and
an analysis printed earlier become an `Analysis`. A section that cannot be read becomes a
placeholder and disturbs nothing else.
-/
namespace PETriage.Report

open PETriage.Field (Spec)
open Image (DosHeader FileHeader OptionalHeader DataDirectory)

inductive NormalizeError
  | noObject (kind : String)
  | payloadNoObject
  | tooLarge
  | tooManyDigits
  | tooDeep
  deriving DecidableEq, Repr

def NormalizeError.message : NormalizeError → String
  | noObject kind => "cannot normalize " ++ kind
  | payloadNoObject => "the payload is no object"
  | tooLarge => Field.RangeError.message .tooLarge
  | tooManyDigits => "Exceeds the limit (4300 digits) for integer string conversion"
  | tooDeep => "maximum recursion depth exceeded"

abbrev Normalized := Except NormalizeError

def liftRange {α : Type} : Except Field.RangeError α → Normalized α
  | .ok a => .ok a
  | .error .tooLarge => .error .tooLarge

def liftWritten {α : Type} : Except Number.WrittenError α → Normalized α
  | .ok a => .ok a
  | .error .tooManyDigits => .error .tooManyDigits

def finiteOrZero (x : Float) : Float := if x.isFinite then x else 0.0

def entropyField (x : Float) : String :=
  Statistics.entropyText (Statistics.clampEntropy (finiteOrZero x))

def chiSquareField (x : Float) : String :=
  let y := finiteOrZero x
  Statistics.chiSquareText (if y > 0.0 then y else 0.0)

def addressText (n : Nat) : String := Number.hexPadded 8 n

/-! ## From the direct parser -/

def sectionOfDirect : Direct.SectionResult → SectionEntry
  | .failed .. | .unmeasured .. => .unprocessed
  | .measured h m => {
    name := h.name
    address := addressText h.virtualAddress
    virtualSize := h.virtualSize
    rawSize := h.rawSize
    entropy := entropyField m.entropy
    chiSquare := chiSquareField m.chiSquare
    characteristics := h.characteristics }

def Analysis.ofDirect (r : Direct.Result) : Analysis where
  fileSize := r.fileSize
  machine := r.headers.file.machine
  timestamp := r.headers.file.timestamp
  sections := r.sections.map sectionOfDirect ++
    (if r.skipped == 0 then [] else [.skipped r.skipped])
  imports := r.imports
  dos := some r.headers.dos
  file := some r.headers.file
  optional := r.headers.optional
  directories := r.headers.directories

/-! ## From a payload -/

/-- The number under a header key, by its name or the name with capitals. -/
def headerNumber (name : String) (v : Value) : Nat := (Field.numeric name []).resolve v

def objectOrNone {α : Type} (f : Value → α) : Value → Option α
  | .object o => some (f (.object o))
  | _ => none

def dosOf (v : Value) : DosHeader where
  magic := Number.hexPadded 4 (Field.dosMagic.resolve v)
  headerOffset := headerNumber "e_lfanew" v
  lastPageBytes := headerNumber "e_cblp" v
  pages := headerNumber "e_cp" v
  relocations := headerNumber "e_crlc" v
  headerParagraphs := headerNumber "e_cparhdr" v
  minParagraphs := headerNumber "e_minalloc" v
  maxParagraphs := headerNumber "e_maxalloc" v
  initialSS := headerNumber "e_ss" v
  initialSP := headerNumber "e_sp" v
  checksum := headerNumber "e_csum" v
  initialIP := headerNumber "e_ip" v
  initialCS := headerNumber "e_cs" v
  relocationTable := headerNumber "e_lfarlc" v
  overlay := headerNumber "e_ovno" v

/-- The machine's name and code. A code other than zero decides; otherwise a name is kept as
given, with its code where it has one. -/
def machineOf (v : Value) : Text × Nat :=
  match Field.machineCode.resolve v, Field.machineLabel.resolve v with
  | some 0, some name => (name, (name.whole?.bind Image.machines.code?).getD 0)
  | none, some name => (name, (name.whole?.bind Image.machines.code?).getD 0)
  | none, none => (Image.unknown, 0)
  | some code, _ => (Image.machineName code, code)

def fileOf (v : Value) : FileHeader :=
  let (machine, code) := machineOf v
  let stamp := Field.timeDateStamp.resolve v
  let characteristics := headerNumber "characteristics" v
  { machine := machine
    machineCode := code
    sectionCount := headerNumber "number_of_sections" v
    timeDateStamp := stamp
    timestamp := Image.timestampText stamp
    symbolTable := headerNumber "pointer_to_symbol_table" v
    symbolCount := headerNumber "number_of_symbols" v
    optionalHeaderSize := headerNumber "size_of_optional_header" v
    characteristics := characteristics
    flags := Image.fileFlags.decode characteristics }

/-- A code other than zero decides, else the code of a name. -/
def subsystemOf (v : Value) : Nat :=
  match Field.subsystemCode.resolve v, v.field? "subsystem" with
  | 0, some (.str name) => (name.whole?.bind Image.subsystems.code?).getD 0
  | code, _ => code

def optionalOf (v : Value) : Normalized OptionalHeader := do
  let magic := Field.optionalMagic.resolve v
  let code := subsystemOf v
  let subsystem ← liftWritten (Image.subsystemName code)
  return {
    magic := Image.magicName magic
    magicCode := magic
    majorLinkerVersion := headerNumber "major_linker_version" v
    minorLinkerVersion := headerNumber "minor_linker_version" v
    sizeOfCode := headerNumber "size_of_code" v
    sizeOfInitializedData := headerNumber "size_of_initialized_data" v
    sizeOfUninitializedData := headerNumber "size_of_uninitialized_data" v
    entryPoint := headerNumber "address_of_entry_point" v
    baseOfCode := headerNumber "base_of_code" v
    baseOfData := Field.baseOfData.resolve v
    imageBase := headerNumber "image_base" v
    sectionAlignment := headerNumber "section_alignment" v
    fileAlignment := headerNumber "file_alignment" v
    majorSystemVersion := headerNumber "major_operating_system_version" v
    minorSystemVersion := headerNumber "minor_operating_system_version" v
    majorImageVersion := headerNumber "major_image_version" v
    minorImageVersion := headerNumber "minor_image_version" v
    majorSubsystemVersion := headerNumber "major_subsystem_version" v
    minorSubsystemVersion := headerNumber "minor_subsystem_version" v
    win32Version := headerNumber "win32_version_value" v
    sizeOfImage := headerNumber "size_of_image" v
    sizeOfHeaders := headerNumber "size_of_headers" v
    checksum := Field.checksum.resolve v
    subsystem := subsystem
    subsystemCode := code
    dllCharacteristics := headerNumber "dll_characteristics" v
    stackReserve := headerNumber "size_of_stack_reserve" v
    stackCommit := headerNumber "size_of_stack_commit" v
    heapReserve := headerNumber "size_of_heap_reserve" v
    heapCommit := headerNumber "size_of_heap_commit" v
    loaderFlags := headerNumber "loader_flags" v
    directoryCount := headerNumber "number_of_rva_and_sizes" v }

/-- The standard name of the directory's number, else the name it is given. -/
def directoryNameOf (v : Value) : Text :=
  match (Field.directoryIndex.resolve v).bind fun i => Image.directoryNames[i]? with
  | some name => name
  | none => Field.directoryName.resolve v

def directoryOf? (v : Value) : Option DataDirectory :=
  match v with
  | .object _ =>
    let address := Field.directoryAddress.resolve v
    let size := Field.directorySize.resolve v
    if address = 0 ∧ size = 0 then none else some ⟨directoryNameOf v, address, size⟩
  | _ => none

def directoriesOf : Value → List DataDirectory
  | .list items => items.filterMap directoryOf?
  | _ => []

/-- A section entry, or nothing when it is no object or a statistic is out of range. -/
def sectionOf? (v : Value) : Option SectionEntry :=
  match v with
  | .object _ =>
    match Field.sectionEntropy.resolve v, Field.sectionChiSquare.resolve v with
    | .ok entropy, .ok chiSquare => some {
      name := Field.sectionName.resolve v
      address := addressText (Field.sectionAddress.resolve v)
      virtualSize := Field.sectionVirtualSize.resolve v
      rawSize := Field.sectionRawSize.resolve v
      entropy := entropyField entropy
      chiSquare := chiSquareField chiSquare
      characteristics := Field.sectionCharacteristics.resolve v }
    | _, _ => none
  | _ => none

def sectionOf (v : Value) : SectionEntry := (sectionOf? v).getD .unprocessed

def sectionsOf : Value → List SectionEntry
  | .list items => items.map sectionOf
  | _ => []

/-- The name of a function, or its ordinal after `ordinal_`. -/
def functionName (v : Value) : Normalized Text :=
  match v with
  | .object o =>
    match (Keyed.get? o "name").filter Value.counts with
    | some name => liftWritten (Display.shown name)
    | none =>
      let ordinal := (Keyed.get? o "ordinal").getD (.str "?")
      (liftWritten (Display.shown ordinal)).map (Text.ofString "ordinal_" ++ ·)
  | v => liftWritten (Display.shown v)

def functionsOf : Option Value → Normalized (List Text)
  | some (.list items) => items.mapM functionName
  | _ => .ok []

def importOf? (v : Value) : Normalized (Option Import) :=
  match v with
  | .object o => do
    let functions ← functionsOf (Keyed.get? o "functions")
    return some ⟨Field.importLibrary.resolve v, functions⟩
  | _ => .ok none

def importsOf : Value → Normalized (Option (List Import))
  | .list items => do
    let imports ← items.mapM importOf?
    return some (imports.filterMap id)
  | _ => .ok none

/-- Words in lower case, parted by blanks. -/
def plainWords (cs : List Char) : String :=
  String.ofList (Text.lower (cs.map fun c => if c == '_' then ' ' else c))

/-- A standard type in plain words, any other as it is. -/
def resourceTypeText (t : Text) : Text :=
  match t.head.toList with
  | 'R' :: 'T' :: '_' :: rest =>
    ⟨plainWords rest, t.tail.map fun (h, s) => (h, plainWords s.toList)⟩
  | _ => t

def resourceOf? (v : Value) : Normalized (Option Resource) :=
  match v with
  | .object _ => do
    let language ← liftWritten (Field.resourceLanguage.resolve v).text
    let entropy ← liftRange (Field.resourceEntropy.resolve v)
    return some {
      type := resourceTypeText (Field.resourceType.resolve v)
      language := language
      size := Field.resourceSize.resolve v
      entropy := entropyField entropy
      hash := Field.resourceHash.resolve v }
  | _ => .ok none

def resourcesOf : Value → Normalized (Option (List Resource))
  | .list items => do
    let resources ← items.mapM resourceOf?
    return some (resources.filterMap id)
  | _ => .ok none

/-- Where the parts of an analysis stand in a payload. -/
structure Parts where
  dos : Value
  file : Value
  optional : Value
  directories : Value
  payload : Option Fields

def fieldOrNull (o : Fields) (key : String) : Value := (o.get? key).getD .null

/-- A header's value where it is known, else the one beside it. -/
def knownOr (header : Option Text) (other : Text) : Text :=
  match header with
  | some text => if text = Image.unknown then other else text
  | none => other

def errorOf (o : Fields) : Option Text :=
  match o.get? "error" with
  | some (.str t) => if t = "" then none else some t
  | _ => none

def Analysis.assemble (o : Fields) (parts : Parts) (fileSize : Option Int) :
    Normalized Analysis := do
  let file := objectOrNone fileOf parts.file
  let imports ← importsOf (fieldOrNull o "imports")
  let resources ← resourcesOf (fieldOrNull o "resources")
  let optional ← (objectOrNone optionalOf parts.optional).mapM id
  return {
    fileSize := fileSize.getD (Field.fileSize.resolve (.object o))
    machine := knownOr (file.map (·.machine)) (Field.machineType.resolve (.object o))
    timestamp := knownOr (file.map (·.timestamp)) (Field.timestamp.resolve (.object o))
    sections := sectionsOf (fieldOrNull o "sections")
    imports := imports
    resources := resources
    dos := objectOrNone dosOf parts.dos
    file := file
    optional := optional
    directories := directoriesOf parts.directories
    error := errorOf o
    payload := parts.payload }

/-- The copy of a payload that an analysis keeps. There may be room for only so many calls that
are open at once while it is made. -/
def copied (payload : Option Fields) : (room : Option Nat) → Normalized (Option Fields)
  | none => .ok payload
  | some calls =>
    if payload.all fun o => (Value.object o).copyCalls ≤ calls then .ok payload
    else .error .tooDeep

def Parts.ofPayload (o : Fields) (payload : Option Fields) : Parts :=
  let header := ((o.get? "header").bind Value.fields?).getD []
  let directories := (header.get? "dataDirectories").getD (fieldOrNull header "data_directories")
  ⟨fieldOrNull header "dos", fieldOrNull header "file", fieldOrNull header "optional", directories,
    payload⟩

def Parts.ofPrinted (o : Fields) (payload : Option Fields) : Parts :=
  ⟨fieldOrNull o "dos_header", fieldOrNull o "file_header", fieldOrNull o "optional_header",
    fieldOrNull o "data_directories", payload⟩

/-- The payload of an external module, with the true size of the file where it is known. -/
def Analysis.ofPayload (o : Fields) (fileSize : Option Int) (room : Option Nat := none) :
    Normalized Analysis := do
  let payload ← copied (some o) room
  assemble o (.ofPayload o payload) fileSize

/-- An analysis printed earlier, whole or reduced. -/
def Analysis.ofPrinted (o : Fields) (room : Option Nat := none) : Normalized Analysis := do
  let payload ← copied ((o.get? "raw_payload").bind Value.fields?) room
  assemble o (.ofPrinted o payload) none

theorem ofPayload_eq_assemble (o : Fields) (fileSize : Option Int) :
    Analysis.ofPayload o fileSize = Analysis.assemble o (.ofPayload o (some o)) fileSize := rfl

theorem ofPrinted_eq_assemble (o : Fields) : Analysis.ofPrinted o =
    Analysis.assemble o (.ofPrinted o ((o.get? "raw_payload").bind Value.fields?)) none := rfl

def isPayload (o : Fields) : Bool := ((o.get? "header").bind Value.fields?).isSome

def Analysis.ofValue (v : Value) (room : Option Nat := none) : Normalized Analysis :=
  match v with
  | .object o => if isPayload o then ofPayload o none room else ofPrinted o room
  | v => .error (.noObject v.kind)

inductive Raw
  | direct (r : Direct.Result)
  | tagged (payload : Value) (fileSize : Option Int)
  | value (v : Value)
  | analysis (a : Analysis)

def normalize (raw : Raw) (room : Option Nat := none) : Normalized Analysis :=
  match raw with
  | .direct r => .ok (.ofDirect r)
  | .tagged (.object o) fileSize => Analysis.ofPayload o fileSize room
  | .tagged _ _ => .error .payloadNoObject
  | .value v => Analysis.ofValue v room
  | .analysis a => (copied a.payload room).map fun payload => { a with payload := payload }

/-- Printing the analysis and reading it again gives the same one. -/
def Analysis.readsBack (a : Analysis) (room : Option Nat := none) : Normalized Bool :=
  (ofValue a.toValue room).map (· == a)

end PETriage.Report
