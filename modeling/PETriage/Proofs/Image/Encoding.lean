import PETriage.Proofs.Bytes
import PETriage.Proofs.Image.Acceptance

/-!
# Headers written as bytes

The numbers of a header, each as wide as its field, and the rows of bytes they are written in.
Where such a row stands in a buffer the header is read from it with exactly these numbers.
-/
namespace PETriage.Image

open Bytes (Sized byte word16 word32 word64 row Holds Reads)

variable {b : ByteArray} {base : Nat}

/-! ## DOS header -/

structure DosNumbers where
  lastPageBytes : UInt16
  pages : UInt16
  relocations : UInt16
  headerParagraphs : UInt16
  minParagraphs : UInt16
  maxParagraphs : UInt16
  initialSS : UInt16
  initialSP : UInt16
  checksum : UInt16
  initialIP : UInt16
  initialCS : UInt16
  relocationTable : UInt16
  overlay : UInt16

def DosNumbers.words (d : DosNumbers) : List Sized := [
  word16 0x5A4D, word16 d.lastPageBytes, word16 d.pages, word16 d.relocations,
  word16 d.headerParagraphs, word16 d.minParagraphs, word16 d.maxParagraphs, word16 d.initialSS,
  word16 d.initialSP, word16 d.checksum, word16 d.initialIP, word16 d.initialCS,
  word16 d.relocationTable, word16 d.overlay]

def DosNumbers.header (d : DosNumbers) (headerOffset : Nat) : DosHeader where
  magic := "0x5a4d"
  headerOffset := headerOffset
  lastPageBytes := d.lastPageBytes.toNat
  pages := d.pages.toNat
  relocations := d.relocations.toNat
  headerParagraphs := d.headerParagraphs.toNat
  minParagraphs := d.minParagraphs.toNat
  maxParagraphs := d.maxParagraphs.toNat
  initialSS := d.initialSS.toNat
  initialSP := d.initialSP.toNat
  checksum := d.checksum.toNat
  initialIP := d.initialIP.toNat
  initialCS := d.initialCS.toNat
  relocationTable := d.relocationTable.toNat
  overlay := d.overlay.toNat

theorem dosFields_of_holds {d : DosNumbers} {headerOffset : Nat} (h : Holds b 0 (row d.words))
    (ho : signatureOffset b = headerOffset) : dosFields b = d.header headerOffset := by
  have hr := h.reads
  simp only [DosNumbers.words, Reads, word16, Nat.zero_add, Nat.reduceAdd, and_true] at hr
  obtain ⟨h0, h2, h4, h6, h8, h10, h12, h14, h16, h18, h20, h22, h24, h26⟩ := hr
  have hmagic : Number.hexPadded 4 (UInt16.toNat 0x5A4D) = "0x5a4d" := by decide
  rw [signatureOffset] at ho
  simp only [dosFields, DosNumbers.header, Bytes.word, ho, h0, h2, h4, h6, h8, h10, h12, h14, h16,
    h18, h20, h22, h24, h26, hmagic]

/-! ## COFF header -/

structure CoffNumbers where
  machine : UInt16
  timeDateStamp : UInt32
  symbolTable : UInt32
  symbolCount : UInt32
  characteristics : UInt16

def CoffNumbers.words (c : CoffNumbers) (sectionCount optionalSize : UInt16) : List Sized := [
  word16 c.machine, word16 sectionCount, word32 c.timeDateStamp, word32 c.symbolTable,
  word32 c.symbolCount, word16 optionalSize, word16 c.characteristics]

def CoffNumbers.header (c : CoffNumbers) (sectionCount optionalSize : Nat) : FileHeader :=
  .ofNumbers c.machine.toNat sectionCount c.timeDateStamp.toNat c.symbolTable.toNat
    c.symbolCount.toNat optionalSize c.characteristics.toNat

theorem fileFields_of_holds {c : CoffNumbers} {sectionCount optionalSize : UInt16}
    (h : Holds b base (row (c.words sectionCount optionalSize))) :
    fileFields b base = c.header sectionCount.toNat optionalSize.toNat := by
  have hr := h.reads
  simp only [CoffNumbers.words, Reads, word16, word32, Nat.add_assoc, Nat.reduceAdd,
    and_true] at hr
  obtain ⟨h0, h2, h4, h8, h12, h16, h18⟩ := hr
  simp only [fileFields, CoffNumbers.header, Bytes.word, Bytes.double, h0, h2, h4, h8, h12, h16,
    h18]

/-! ## Optional header -/

/-- What the 32-bit layout has of its own; it goes with every magic but that of the other. -/
structure Narrow where
  magic : UInt16
  baseOfData : UInt32
  imageBase : UInt32
  stackReserve : UInt32
  stackCommit : UInt32
  heapReserve : UInt32
  heapCommit : UInt32
  notWide : magic.toNat ≠ pe32PlusMagic

structure Wide where
  imageBase : UInt64
  stackReserve : UInt64
  stackCommit : UInt64
  heapReserve : UInt64
  heapCommit : UInt64

inductive Layout
  | narrow (n : Narrow)
  | wide (w : Wide)

namespace Layout

def magic : Layout → UInt16
  | narrow n => n.magic
  | wide _ => 0x20B

def fixedSize : Layout → Nat
  | narrow _ => 96
  | wide _ => 112

theorem optionalFixedSize_magic (l : Layout) : optionalFixedSize l.magic.toNat = l.fixedSize := by
  cases l with
  | narrow n => exact if_neg (by simpa [magic] using n.notWide)
  | wide w => rfl

def bases : Layout → List Sized
  | narrow n => [word32 n.baseOfData, word32 n.imageBase]
  | wide w => [word64 w.imageBase]

def reserves : Layout → List Sized
  | narrow n => [word32 n.stackReserve, word32 n.stackCommit, word32 n.heapReserve,
      word32 n.heapCommit]
  | wide w => [word64 w.stackReserve, word64 w.stackCommit, word64 w.heapReserve,
      word64 w.heapCommit]

end Layout

structure OptionalNumbers where
  layout : Layout
  majorLinkerVersion : UInt8
  minorLinkerVersion : UInt8
  sizeOfCode : UInt32
  sizeOfInitializedData : UInt32
  sizeOfUninitializedData : UInt32
  entryPoint : UInt32
  baseOfCode : UInt32
  sectionAlignment : UInt32
  fileAlignment : UInt32
  majorSystemVersion : UInt16
  minorSystemVersion : UInt16
  majorImageVersion : UInt16
  minorImageVersion : UInt16
  majorSubsystemVersion : UInt16
  minorSubsystemVersion : UInt16
  win32Version : UInt32
  sizeOfImage : UInt32
  sizeOfHeaders : UInt32
  checksum : UInt32
  subsystem : UInt16
  dllCharacteristics : UInt16
  loaderFlags : UInt32
  directoryCount : UInt32

def OptionalNumbers.words (o : OptionalNumbers) : List Sized :=
  [word16 o.layout.magic, byte o.majorLinkerVersion, byte o.minorLinkerVersion,
    word32 o.sizeOfCode, word32 o.sizeOfInitializedData, word32 o.sizeOfUninitializedData,
    word32 o.entryPoint, word32 o.baseOfCode] ++
  o.layout.bases ++
  [word32 o.sectionAlignment, word32 o.fileAlignment, word16 o.majorSystemVersion,
    word16 o.minorSystemVersion, word16 o.majorImageVersion, word16 o.minorImageVersion,
    word16 o.majorSubsystemVersion, word16 o.minorSubsystemVersion, word32 o.win32Version,
    word32 o.sizeOfImage, word32 o.sizeOfHeaders, word32 o.checksum, word16 o.subsystem,
    word16 o.dllCharacteristics] ++
  o.layout.reserves ++ [word32 o.loaderFlags, word32 o.directoryCount]

/-- The record with these numbers; the base of data belongs to the 32-bit layout alone. -/
def OptionalNumbers.header (o : OptionalNumbers) : OptionalHeader :=
  let common : OptionalHeader := {
    magic := magicName o.layout.magic.toNat
    magicCode := o.layout.magic.toNat
    majorLinkerVersion := o.majorLinkerVersion.toNat
    minorLinkerVersion := o.minorLinkerVersion.toNat
    sizeOfCode := o.sizeOfCode.toNat
    sizeOfInitializedData := o.sizeOfInitializedData.toNat
    sizeOfUninitializedData := o.sizeOfUninitializedData.toNat
    entryPoint := o.entryPoint.toNat
    baseOfCode := o.baseOfCode.toNat
    sectionAlignment := o.sectionAlignment.toNat
    fileAlignment := o.fileAlignment.toNat
    majorSystemVersion := o.majorSystemVersion.toNat
    minorSystemVersion := o.minorSystemVersion.toNat
    majorImageVersion := o.majorImageVersion.toNat
    minorImageVersion := o.minorImageVersion.toNat
    majorSubsystemVersion := o.majorSubsystemVersion.toNat
    minorSubsystemVersion := o.minorSubsystemVersion.toNat
    win32Version := o.win32Version.toNat
    sizeOfImage := o.sizeOfImage.toNat
    sizeOfHeaders := o.sizeOfHeaders.toNat
    checksum := o.checksum.toNat
    subsystem := subsystemNameOfWord o.subsystem.toNat
    subsystemCode := o.subsystem.toNat
    dllCharacteristics := o.dllCharacteristics.toNat
    loaderFlags := o.loaderFlags.toNat
    directoryCount := o.directoryCount.toNat }
  match o.layout with
  | .narrow n => { common with
      baseOfData := some n.baseOfData.toNat
      imageBase := n.imageBase.toNat
      stackReserve := n.stackReserve.toNat
      stackCommit := n.stackCommit.toNat
      heapReserve := n.heapReserve.toNat
      heapCommit := n.heapCommit.toNat }
  | .wide w => { common with
      baseOfData := none
      imageBase := w.imageBase.toNat
      stackReserve := w.stackReserve.toNat
      stackCommit := w.stackCommit.toNat
      heapReserve := w.heapReserve.toNat
      heapCommit := w.heapCommit.toNat }

theorem OptionalNumbers.header_magicCode (o : OptionalNumbers) :
    o.header.magicCode = o.layout.magic.toNat := by
  rw [header]
  cases o.layout <;> rfl

theorem OptionalNumbers.header_directoryCount (o : OptionalNumbers) :
    o.header.directoryCount = o.directoryCount.toNat := by
  rw [header]
  cases o.layout <;> rfl

theorem OptionalNumbers.header_baseOfData (o : OptionalNumbers) :
    o.header.baseOfData = none ↔ o.layout.magic.toNat = pe32PlusMagic := by
  rw [header]
  cases o.layout with
  | narrow n => exact iff_of_false nofun n.notWide
  | wide w => exact iff_of_true rfl rfl

theorem length_row_words (o : OptionalNumbers) : (row o.words).length = o.layout.fixedSize := by
  obtain ⟨layout⟩ := o
  cases layout with
  | narrow n => rfl
  | wide w => rfl

theorem little_one (b : ByteArray) (i : Nat) : Bytes.little b i 1 = Bytes.byteAt b i := rfl

theorem optionalFields_of_holds {o : OptionalNumbers} (h : Holds b base (row o.words)) :
    optionalFields b base = o.header := by
  have hr := h.reads
  obtain ⟨layout⟩ := o
  cases layout with
  | narrow n =>
    have hplus : (n.magic.toNat == pe32PlusMagic) = false := by simpa using n.notWide
    simp only [OptionalNumbers.words, Layout.bases, Layout.reserves, Layout.magic,
      List.cons_append, List.nil_append, Reads, byte, word16, word32, Nat.add_assoc,
      Nat.reduceAdd, and_true, little_one] at hr
    simp only [optionalFields, OptionalNumbers.header, Layout.magic, Bytes.word, Bytes.double,
      Nat.add_assoc, Nat.reduceAdd, Nat.reduceMul, hr, hplus, Bool.false_eq_true, if_false]
  | wide w =>
    have hplus : (UInt16.toNat 0x20B == pe32PlusMagic) = true := rfl
    simp only [OptionalNumbers.words, Layout.bases, Layout.reserves, Layout.magic,
      List.cons_append, List.nil_append, Reads, byte, word16, word32, word64, Nat.add_assoc,
      Nat.reduceAdd, and_true, little_one] at hr
    simp only [optionalFields, OptionalNumbers.header, Layout.magic, Bytes.word, Bytes.double,
      Bytes.quad, Nat.add_assoc, Nat.reduceAdd, Nat.reduceMul, hr, hplus, if_true]

/-! ## Rows of the section table -/

structure SectionNumbers where
  name : List UInt8
  name_length : name.length = 8
  virtualSize : UInt32
  virtualAddress : UInt32
  rawSize : UInt32
  rawPointer : UInt32
  relocations : UInt32
  lineNumbers : UInt32
  relocationCount : UInt16
  lineNumberCount : UInt16
  characteristics : UInt32

namespace SectionNumbers

def words (s : SectionNumbers) : List Sized := [
  word32 s.virtualSize, word32 s.virtualAddress, word32 s.rawSize, word32 s.rawPointer,
  word32 s.relocations, word32 s.lineNumbers, word16 s.relocationCount, word16 s.lineNumberCount,
  word32 s.characteristics]

def bytes (s : SectionNumbers) : List UInt8 := s.name ++ row s.words

theorem length_bytes (s : SectionNumbers) : s.bytes.length = sectionRowSize := by
  rw [bytes, List.length_append, s.name_length]
  rfl

def header (s : SectionNumbers) : SectionHeader where
  name := sectionName s.name
  virtualSize := s.virtualSize.toNat
  virtualAddress := s.virtualAddress.toNat
  rawSize := s.rawSize.toNat
  rawPointer := s.rawPointer.toNat
  characteristics := s.characteristics.toNat

end SectionNumbers

theorem sectionRow_of_holds {s : SectionNumbers} (h : Holds b base s.bytes) :
    sectionRow b base = .header s.header := by
  have hsize : ¬b.size < base + sectionRowSize := by
    have hle := h.length_le (List.ne_nil_of_length_pos (by rw [s.length_bytes]; decide))
    rw [s.length_bytes] at hle
    exact Nat.not_lt.2 hle
  have hname := h.left.extract
  have hr := h.right.reads
  rw [s.name_length] at hname hr
  simp only [SectionNumbers.words, Reads, word16, word32, Nat.add_assoc, Nat.reduceAdd,
    and_true] at hr
  simp only [sectionRow, if_neg hsize, SectionNumbers.header, Bytes.double, hname, hr]

end PETriage.Image
