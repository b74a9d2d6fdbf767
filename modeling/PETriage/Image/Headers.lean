import PETriage.Bytes
import PETriage.Image.Records
import PETriage.Image.Timestamp
import PETriage.Text.Blank
import PETriage.Text.Utf8

/-!
# Headers decoded from the bytes of an image

The DOS header points to the signature, the COFF header follows it, then the optional
header with its data directories and the table of sections. The buffer may be only the
front of a file, so each block is asked for before it is read; a block outside the buffer
would be the error `outside`.
-/
namespace PETriage.Image

inductive HeaderError
  | notImage
  | shorterThanDos (size : Nat)
  | signatureOutside (offset size : Nat)
  | signatureMissing (offset : Nat)
  | coffTruncated
  | outside (offset size : Nat)
  | directoryUnnamed (index : Nat)
  deriving DecidableEq, Repr

def HeaderError.message : HeaderError → String
  | notImage => "missing MZ signature"
  | shorterThanDos size =>
    "buffer of " ++ Number.decimal size ++ " bytes is shorter than the DOS header"
  | signatureOutside offset size =>
    "e_lfanew " ++ Number.hex offset ++ " is outside the " ++ Number.decimal size ++ "-byte buffer"
  | signatureMissing offset => "missing PE signature at " ++ Number.hex offset
  | coffTruncated => "COFF file header is truncated"
  | outside offset size =>
    "no " ++ Number.decimal size ++ " bytes at " ++ Number.hex offset
  | directoryUnnamed index => "data directory " ++ Number.decimal index ++ " has no name"

/-- The input is no image at all, rather than a damaged one. -/
def HeaderError.isNotImage : HeaderError → Bool
  | notImage => true
  | _ => false

abbrev Decoded := Except HeaderError

/-- A block of the buffer that is about to be read. -/
def block (b : ByteArray) (offset size : Nat) : Decoded Unit :=
  if offset + size ≤ b.size then .ok () else .error (.outside offset size)

def dosSize : Nat := 64
def coffSize : Nat := 20
def sectionRowSize : Nat := 40
def directorySlotSize : Nat := 8
def maxDirectories : Nat := 16
def classifyLength : Nat := 8

def startsAsImage (b : ByteArray) : Bool :=
  2 ≤ b.size && Bytes.byteAt b 0 == 0x4D && Bytes.byteAt b 1 == 0x5A

def dosHeader (b : ByteArray) : Decoded DosHeader := do
  if b.size < dosSize then throw (.shorterThanDos b.size)
  block b 0 28
  block b 0x3C 4
  return {
    magic := Number.hexPadded 4 (Bytes.word b 0)
    headerOffset := Bytes.double b 0x3C
    lastPageBytes := Bytes.word b 2
    pages := Bytes.word b 4
    relocations := Bytes.word b 6
    headerParagraphs := Bytes.word b 8
    minParagraphs := Bytes.word b 10
    maxParagraphs := Bytes.word b 12
    initialSS := Bytes.word b 14
    initialSP := Bytes.word b 16
    checksum := Bytes.word b 18
    initialIP := Bytes.word b 20
    initialCS := Bytes.word b 22
    relocationTable := Bytes.word b 24
    overlay := Bytes.word b 26 }

/-- The record of a COFF header that holds these numbers. -/
def FileHeader.ofNumbers (machine sectionCount stamp symbolTable symbolCount optionalSize
    characteristics : Nat) : FileHeader where
  machine := machineName machine
  machineCode := machine
  sectionCount := sectionCount
  timeDateStamp := stamp
  timestamp := timestampText stamp
  symbolTable := symbolTable
  symbolCount := symbolCount
  optionalHeaderSize := optionalSize
  characteristics := characteristics
  flags := fileFlags.decode characteristics

def fileHeader (b : ByteArray) (base : Nat) : Decoded FileHeader := do
  if b.size < base + coffSize then throw .coffTruncated
  block b base coffSize
  return .ofNumbers (Bytes.word b base) (Bytes.word b (base + 2)) (Bytes.double b (base + 4))
    (Bytes.double b (base + 8)) (Bytes.double b (base + 12)) (Bytes.word b (base + 16))
    (Bytes.word b (base + 18))

/-- Sizes of the optional header before its data directories. -/
def optionalFixedSize (magic : Nat) : Nat := if magic == pe32PlusMagic then 112 else 96

/-- A subsystem code of the header is a word, so its decimal text is short. -/
def subsystemNameOfWord (code : Nat) : String :=
  (subsystems.name? code).getD (unknownCode (Number.decimal code))

/-- The fixed part of the optional header. The 64-bit layout has no base of data, eight bytes
of image base in its place, and eight-byte stack and heap sizes. -/
def optionalFields (b : ByteArray) (base : Nat) : OptionalHeader :=
  let magic := Bytes.word b base
  let plus := magic == pe32PlusMagic
  let wide := if plus then 8 else 4
  let stack := base + 72
  let subsystem := Bytes.word b (base + 68)
  { magic := magicName magic
    magicCode := magic
    majorLinkerVersion := Bytes.byteAt b (base + 2)
    minorLinkerVersion := Bytes.byteAt b (base + 3)
    sizeOfCode := Bytes.double b (base + 4)
    sizeOfInitializedData := Bytes.double b (base + 8)
    sizeOfUninitializedData := Bytes.double b (base + 12)
    entryPoint := Bytes.double b (base + 16)
    baseOfCode := Bytes.double b (base + 20)
    baseOfData := if plus then none else some (Bytes.double b (base + 24))
    imageBase := if plus then Bytes.quad b (base + 24) else Bytes.double b (base + 28)
    sectionAlignment := Bytes.double b (base + 32)
    fileAlignment := Bytes.double b (base + 36)
    majorSystemVersion := Bytes.word b (base + 40)
    minorSystemVersion := Bytes.word b (base + 42)
    majorImageVersion := Bytes.word b (base + 44)
    minorImageVersion := Bytes.word b (base + 46)
    majorSubsystemVersion := Bytes.word b (base + 48)
    minorSubsystemVersion := Bytes.word b (base + 50)
    win32Version := Bytes.double b (base + 52)
    sizeOfImage := Bytes.double b (base + 56)
    sizeOfHeaders := Bytes.double b (base + 60)
    checksum := Bytes.double b (base + 64)
    subsystem := subsystemNameOfWord subsystem
    subsystemCode := subsystem
    dllCharacteristics := Bytes.word b (base + 70)
    stackReserve := Bytes.little b stack wide
    stackCommit := Bytes.little b (stack + wide) wide
    heapReserve := Bytes.little b (stack + 2 * wide) wide
    heapCommit := Bytes.little b (stack + 3 * wide) wide
    loaderFlags := Bytes.double b (stack + 4 * wide)
    directoryCount := Bytes.double b (stack + 4 * wide + 4) }

/-- The optional header, absent when it is declared or present with less than its fixed part. -/
def optionalHeader (b : ByteArray) (base declared : Nat) : Decoded (Option OptionalHeader) := do
  if b.size < base + 2 ∨ declared < 2 then return none
  block b base 2
  let fixed := optionalFixedSize (Bytes.word b base)
  if b.size < base + fixed then return none
  block b base fixed
  return some (optionalFields b base)

def directoryName (index : Nat) : Decoded String :=
  match directoryNames[index]? with
  | some name => .ok name
  | none => .error (.directoryUnnamed index)

/-- The directories in `count` slots from number `index` on; a slot of zeros holds none. -/
def directoriesFrom (b : ByteArray) (base index : Nat) : Nat → Decoded (List DataDirectory)
  | 0 => return []
  | count + 1 => do
    let slot := base + index * directorySlotSize
    block b slot directorySlotSize
    let address := Bytes.double b slot
    let size := Bytes.double b (slot + 4)
    if address == 0 && size == 0 then directoriesFrom b base (index + 1) count
    else
      let name ← directoryName index
      let others ← directoriesFrom b base (index + 1) count
      return ⟨name, address, size⟩ :: others

/-- Slots that the header counts, declares room for, and that lie in the buffer. -/
def directorySlots (b : ByteArray) (base declared fixed counted : Nat) : Nat :=
  min (min counted maxDirectories)
    (min ((declared - fixed) / directorySlotSize) ((b.size - base) / directorySlotSize))

structure Headers where
  dos : DosHeader
  file : FileHeader
  optional : Option OptionalHeader
  directories : List DataDirectory
  sectionTable : Nat
  deriving DecidableEq, Repr

def signature : List UInt8 := [0x50, 0x45, 0, 0]

def directoriesOf (b : ByteArray) (base declared : Nat) :
    Option OptionalHeader → Decoded (List DataDirectory)
  | none => return []
  | some optional =>
    let fixed := optionalFixedSize optional.magicCode
    directoriesFrom b (base + fixed) 0
      (directorySlots b (base + fixed) declared fixed optional.directoryCount)

def Headers.decode (b : ByteArray) : Decoded Headers := do
  if !startsAsImage b then throw .notImage
  let dos ← dosHeader b
  let base := dos.headerOffset
  if b.size < base + 4 then throw (.signatureOutside base b.size)
  if Bytes.toList (b.extract base (base + 4)) != signature then throw (.signatureMissing base)
  let file ← fileHeader b (base + 4)
  let optionalAt := base + 24
  let optional ← optionalHeader b optionalAt file.optionalHeaderSize
  let directories ← directoriesOf b optionalAt file.optionalHeaderSize optional
  return ⟨dos, file, optional, directories, optionalAt + file.optionalHeaderSize⟩

/-- A section's name: the characters before the first zero byte, trimmed. -/
def sectionName (raw : List UInt8) : String :=
  let name := Text.trim (Text.Utf8.decode (Bytes.beforeZero raw))
  if name.isEmpty then "Unnamed" else String.ofList name

structure SectionHeader where
  name : String
  virtualSize : Nat
  virtualAddress : Nat
  rawSize : Nat
  rawPointer : Nat
  characteristics : Nat
  deriving DecidableEq, Repr

/-- A row of the section table, or the place where the buffer ends before it. -/
inductive SectionRow
  | header (h : SectionHeader)
  | beyond (offset : Nat)
  deriving DecidableEq, Repr

def SectionRow.error? : SectionRow → Option String
  | header _ => none
  | beyond offset => some ("section header at " ++ Number.hex offset ++ " is beyond the buffer")

def sectionRow (b : ByteArray) (base : Nat) : SectionRow :=
  if b.size < base + sectionRowSize then .beyond base
  else .header {
    name := sectionName (Bytes.toList (b.extract base (base + 8)))
    virtualSize := Bytes.double b (base + 8)
    virtualAddress := Bytes.double b (base + 12)
    rawSize := Bytes.double b (base + 16)
    rawPointer := Bytes.double b (base + 20)
    characteristics := Bytes.double b (base + 36) }

/-- The first rows of the section table, as many as are declared and wanted. -/
def Headers.sectionRows (h : Headers) (b : ByteArray) (limit : Int) : List SectionRow :=
  (List.range (min (h.file.sectionCount : Int) limit).toNat).map fun i =>
    sectionRow b (h.sectionTable + i * sectionRowSize)

end PETriage.Image
