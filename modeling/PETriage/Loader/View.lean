import PETriage.Image.Headers

/-!
# A loader's view of an image

Headers read the way a loader reads them: a short optional header is filled up with zeros,
the section table ends at the first entry that cannot be one, and sections are ordered by
address. Data is found by its address in memory.
-/
namespace PETriage.Loader

open Image (DosHeader FileHeader OptionalHeader)

inductive LoadError
  | dosTruncated
  | reversedMagic
  | dosMagic
  | headerOffset
  | noHeaders
  | otherFormat (name : String)
  | signature
  | noFileHeader
  | noOptionalHeader
  | shortEntry
  | unreachable
  deriving DecidableEq, Repr

def LoadError.message : LoadError → String
  | dosTruncated => "Unable to read the DOS Header, possibly a truncated file."
  | reversedMagic => "Probably a ZM Executable (not a PE file)."
  | dosMagic => "DOS Header magic not found."
  | headerOffset => "Invalid e_lfanew value, probably not a PE file"
  | noHeaders => "NT Headers not found."
  | otherFormat name => "Invalid NT Headers signature. Probably a " ++ name ++ " file"
  | signature => "Invalid NT Headers signature."
  | noFileHeader => "File Header missing"
  | noOptionalHeader => "No Optional Header found, invalid PE32 or PE32+ file."
  | shortEntry => "Data length less than expected header length."
  | unreachable => "data at RVA can't be fetched. Corrupt header?"

abbrev Loaded := Except LoadError

structure Section where
  name : List UInt8
  virtualSize : Nat
  virtualAddress : Nat
  rawSize : Nat
  rawPointer : Nat
  characteristics : Nat

structure Slot where
  address : Nat
  size : Nat

structure View where
  bytes : ByteArray
  dos : DosHeader
  file : FileHeader
  optional : OptionalHeader
  slots : List Slot
  /-- In the order of their addresses. -/
  sections : List Section
  /-- The bytes in front that are not part of a section. -/
  headerSize : Nat

/-! ## Headers -/

def otherFormats : List (Nat × String) := [
  (0x454E, "NE"), (0x454C, "LE"), (0x584C, "LX"), (0x5A56, "TE")]

def checkSignature (b : ByteArray) (base : Nat) : Loaded Unit :=
  let signature := Bytes.double b base
  if b.size < base + 4 ∨ signature = 0 then .error .noHeaders
  else match otherFormats.find? (·.1 == signature % 65536) with
    | some (_, name) => .error (.otherFormat name)
    | none => if signature = 0x4550 then .ok () else .error .signature

def dosHeader (b : ByteArray) : Loaded DosHeader :=
  match Image.dosHeader b with
  | .error _ => .error .dosTruncated
  | .ok dos =>
    let magic := Bytes.word b 0
    if magic = 0x4D5A then .error .reversedMagic
    else if magic ≠ 0x5A4D then .error .dosMagic
    else .ok dos

/-- The optional header, if all that a loader needs of it is there. -/
def optionalHeader (b : ByteArray) (base : Nat) : Loaded OptionalHeader :=
  let optional := Image.optionalFields b base
  let needed := if optional.magicCode = Image.pe32PlusMagic then 73 else 69
  if b.size < base + needed then .error .noOptionalHeader else .ok optional

def slotsFrom (b : ByteArray) (base : Nat) : Nat → List Slot
  | 0 => []
  | count + 1 =>
    if base = b.size then []
    else ⟨Bytes.double b base, Bytes.double b (base + 4)⟩ ::
      slotsFrom b (base + Image.directorySlotSize) count

/-! ## Sections -/

def rawAlignment : Nat := 0x200
def pageSize : Nat := 0x1000
def sectionLimit : Nat := 0x800
def farAddress : Nat := 0x10000000

def roundDown (n unit : Nat) : Nat := if unit = 0 then n else n / unit * unit

/-- Where the data of a section starts in the file: at a multiple of a sector, unless the file is
laid out as the memory is. -/
def rawStart (optional : OptionalHeader) (s : Section) : Nat :=
  if optional.sectionAlignment < pageSize ∧ s.rawPointer = s.virtualAddress then s.rawPointer
  else roundDown s.rawPointer rawAlignment

def memoryStart (optional : OptionalHeader) (address : Nat) : Nat :=
  roundDown address
    (if optional.sectionAlignment < pageSize then optional.fileAlignment
      else optional.sectionAlignment)

/-- How many things are wrong with a section's numbers. -/
def oddities (size : Nat) (optional : OptionalHeader) (s : Section) : Nat :=
  let found : List Bool := [
    decide (size < s.rawPointer + s.rawSize),
    decide (size < rawStart optional s),
    decide (farAddress < s.virtualSize),
    decide (farAddress < memoryStart optional s.virtualAddress),
    optional.fileAlignment != 0 && s.rawPointer % optional.fileAlignment != 0]
  found.count true

def sectionAt (b : ByteArray) (base : Nat) : Section where
  name := Bytes.toList (b.extract base (base + 8))
  virtualSize := Bytes.double b (base + 8)
  virtualAddress := Bytes.double b (base + 12)
  rawSize := Bytes.double b (base + 16)
  rawPointer := Bytes.double b (base + 20)
  characteristics := Bytes.double b (base + 36)

/-- The entries of the section table up to one of zeros, one outside the file, or one with
three oddities. -/
def sectionsFrom (b : ByteArray) (optional : OptionalHeader) (base : Nat) :
    Nat → Loaded (List Section)
  | 0 => .ok []
  | count + 1 =>
    let row := Bytes.toList (b.extract base (base + Image.sectionRowSize))
    if row.isEmpty || (row.length == Image.sectionRowSize && row.all (· == 0)) then .ok []
    else if row.length < Image.sectionRowSize then .error .shortEntry
    else
      let s := sectionAt b base
      if 3 ≤ oddities b.size optional s then .ok []
      else (sectionsFrom b optional (base + Image.sectionRowSize) count).map (s :: ·)

def byAddress (sections : List Section) : List Section :=
  sections.mergeSort fun a b => a.virtualAddress ≤ b.virtualAddress

/-- The header ends where the first section's data starts, unless the table reaches further. -/
def headerEnd (optional : OptionalHeader) (tableEnd : Nat) (sections : List Section) : Nat :=
  let starts := (sections.filter (·.rawPointer != 0)).map (rawStart optional)
  match starts.min? with
  | some lowest => if lowest < tableEnd then tableEnd else lowest
  | none => tableEnd

def View.ofBytes (b : ByteArray) : Loaded View := do
  let dos ← dosHeader b
  let base := dos.headerOffset
  if b.size < base then throw .headerOffset
  checkSignature b base
  let file ← (Image.fileHeader b (base + 4)).mapError fun _ => LoadError.noFileHeader
  let optionalAt := base + 24
  let optional ← optionalHeader b optionalAt
  let count := min (optional.directoryCount % 0x80000000) Image.maxDirectories
  let slots := slotsFrom b (optionalAt + Image.optionalFixedSize optional.magicCode) count
  let table := optionalAt + file.optionalHeaderSize
  let sections ← sectionsFrom b optional table (min file.sectionCount sectionLimit)
  let tableEnd :=
    if sections.isEmpty then table else table + Image.sectionRowSize * file.sectionCount
  return {
    bytes := b
    dos := dos
    file := file
    optional := optional
    slots := slots
    sections := byAddress sections
    headerSize := min (headerEnd optional tableEnd sections) b.size }

/-! ## Data by address -/

/-- The bytes of a section, from an address on or from its start. -/
def View.sectionData (v : View) (s : Section) : ByteArray :=
  let start := rawStart v.optional s
  v.bytes.extract start (start + s.rawSize)

structure Extent where
  owner : Section
  first : Nat
  stop : Nat

def Extent.holds (e : Extent) (address : Nat) : Bool := e.first ≤ address && address < e.stop

/-- The addresses of a section, up to the next section's. -/
def View.extent (v : View) (s : Section) (next : Option Section) : Extent :=
  let start := memoryStart v.optional s.virtualAddress
  let size :=
    if v.bytes.size < rawStart v.optional s + s.rawSize then s.virtualSize
    else max s.rawSize s.virtualSize
  match next with
  | some n =>
    if s.virtualAddress < n.virtualAddress ∧ n.virtualAddress < start + size then
      ⟨s, start, n.virtualAddress⟩
    else ⟨s, start, start + size⟩
  | none => ⟨s, start, start + size⟩

def View.extentFrom? (v : View) (address : Nat) : List Section → Option Extent
  | [] => none
  | s :: rest =>
    let e := v.extent s rest.head?
    if e.holds address then some e else v.extentFrom? address rest

def View.extentOf? (v : View) (address : Nat) : Option Extent := v.extentFrom? address v.sections

/-- What a loader keeps while it follows addresses: where it found the last one, and how many
thunks and how many entries of folders it has counted. -/
structure Trail where
  found : Option Extent := none
  thunks : Nat := 0
  entries : Nat := 0

abbrev Follow := StateM Trail

/-- The first address that is looked for is that of the entry point. -/
def View.start (v : View) : Trail := { found := v.extentOf? v.optional.entryPoint }

/-- The section of an address: where several take it, that of the last address found if it is
among them, else the first. -/
def View.sectionOf? (v : View) (address : Nat) : Follow (Option Section) := do
  let t ← get
  match t.found.filter (·.holds address) with
  | some e => return some e.owner
  | none =>
    let e := v.extentOf? address
    set { t with found := e <|> t.found }
    return e.map (·.owner)

def View.placeIn (v : View) (s : Section) (address : Nat) : Nat :=
  address + rawStart v.optional s - memoryStart v.optional s.virtualAddress

/-- At most so many bytes from an address in a section, as far as its data goes. -/
def View.dataIn (v : View) (s : Section) (address length : Nat) : ByteArray :=
  let start := v.placeIn s address
  v.bytes.extract start (min (start + length) (s.rawPointer + s.rawSize))

/-- The bytes at an address. Outside every section an address is a place in the file. -/
def View.data (v : View) (address length : Nat) : Follow (Loaded ByteArray) := do
  match ← v.sectionOf? address with
  | some s => return .ok (v.dataIn s address length)
  | none =>
    if address < v.headerSize then
      return .ok (v.bytes.extract address (min v.headerSize (address + length)))
    else if address < v.bytes.size then return .ok (v.bytes.extract address (address + length))
    else return .error .unreachable

def View.record? (v : View) (address length : Nat) : Follow (Option ByteArray) := do
  match ← v.data address length with
  | .ok b => return if b.size < length then none else some b
  | .error _ => return none

/-- The bytes up to a zero at an address, at most so many. -/
def View.zeroEnded (v : View) (address limit : Nat) : Follow (List UInt8) := do
  let b := match ← v.sectionOf? address with
    | some s => v.dataIn s address limit
    | none => v.bytes.extract address (address + limit)
  return Bytes.beforeZero (Bytes.toList b)

def View.place (v : View) (address : Nat) : Follow Nat := do
  match ← v.sectionOf? address with
  | some s => return v.placeIn s address
  | none => return address

end PETriage.Loader
