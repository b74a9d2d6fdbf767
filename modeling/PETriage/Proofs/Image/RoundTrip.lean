import PETriage.Proofs.Image.Encoding

/-!
# Images that are decoded to what they were written from

An image is planned as the numbers of its headers, its data directories and the rows of its
section table, with bytes of any kind in between and behind. Decoding the bytes of a plan gives
back its numbers.
-/
namespace PETriage.Image

open Bytes (Sized byte word16 word32 row Holds)

variable {b : ByteArray} {base : Nat}

/-! ## Slots of data directories -/

/-- The slots of eight bytes in a row; what is left over fills none. -/
def slotsOf (bytes : List UInt8) : List (Nat × Nat) :=
  if 8 ≤ bytes.length then
    (Gzip.numberOf (bytes.take 4), Gzip.numberOf ((bytes.drop 4).take 4)) :: slotsOf (bytes.drop 8)
  else []
  termination_by bytes.length
  decreasing_by
    rw [List.length_drop]
    omega

theorem length_slotsOf (bytes : List UInt8) : (slotsOf bytes).length = bytes.length / 8 := by
  induction bytes using slotsOf.induct with
  | case1 bytes h ih =>
    rw [slotsOf, if_pos h, List.length_cons, ih, List.length_drop]
    omega
  | case2 bytes h =>
    rw [slotsOf, if_neg h, List.length_nil]
    omega

def directoryBytes (d : UInt32 × UInt32) : List UInt8 := row [word32 d.1, word32 d.2]

theorem length_directoryBytes (d : UInt32 × UInt32) : (directoryBytes d).length = 8 := rfl

theorem slotsOf_append (directories : List (UInt32 × UInt32)) (padding : List UInt8) :
    slotsOf (directories.flatMap directoryBytes ++ padding) =
      directories.map (fun d => (d.1.toNat, d.2.toNat)) ++ slotsOf padding := by
  induction directories with
  | nil => rfl
  | cons d directories ih =>
    have haddress := Gzip.numberOf_unlittle 4 d.1.toNat (word32 d.1).fits
    have hsize := Gzip.numberOf_unlittle 4 d.2.toNat (word32 d.2).fits
    have hbytes : directoryBytes d = Bytes.unlittle 4 d.1.toNat ++ Bytes.unlittle 4 d.2.toNat :=
      congrArg (Bytes.unlittle 4 d.1.toNat ++ ·) (List.append_nil _)
    generalize htail : directories.flatMap directoryBytes ++ padding = tail at ih
    have hlong : 8 ≤ (directoryBytes d ++ tail).length := by
      rw [List.length_append, length_directoryBytes]
      omega
    have hdrop : (directoryBytes d ++ tail).drop 8 = tail :=
      List.drop_left' (length_directoryBytes d)
    rw [List.flatMap_cons, List.append_assoc, htail, slotsOf, if_pos hlong, hdrop, ih, hbytes,
      List.append_assoc]
    have hfirst : (Bytes.unlittle 4 d.1.toNat ++ (Bytes.unlittle 4 d.2.toNat ++ tail)).take 4 =
        Bytes.unlittle 4 d.1.toNat := List.take_left' (Bytes.length_unlittle 4 _)
    have hrest : (Bytes.unlittle 4 d.1.toNat ++ (Bytes.unlittle 4 d.2.toNat ++ tail)).drop 4 =
        Bytes.unlittle 4 d.2.toNat ++ tail := List.drop_left' (Bytes.length_unlittle 4 _)
    rw [hfirst, hrest, List.take_left' (Bytes.length_unlittle 4 _), haddress, hsize]
    rfl

/-- The directory that a slot holds, under the name that its number has. -/
def directoryOfSlot (slot : Nat × Nat) (index : Nat) : Option DataDirectory :=
  if slot.1 = 0 ∧ slot.2 = 0 then none
  else directoryNames[index]?.map fun name : String => ⟨name, slot.1, slot.2⟩

def directoriesOfSlots (slots : List (Nat × Nat)) : List DataDirectory :=
  slots.zipIdx.filterMap fun (slot, index) => directoryOfSlot slot index

theorem directoryAt?_of_holds {bytes : List UInt8} {index : Nat}
    (h : Holds b (base + index * 8) bytes) (hlong : 8 ≤ bytes.length) :
    directoryAt? b base index = directoryOfSlot
      (Gzip.numberOf (bytes.take 4), Gzip.numberOf ((bytes.drop 4).take 4)) index := by
  rw [← List.take_append_drop 4 bytes] at h
  have haddress := h.left.little
  have hsize := h.right
  rw [← List.take_append_drop 4 (bytes.drop 4)] at hsize
  have hsize := hsize.left.little
  simp only [List.length_take, List.length_drop] at haddress hsize
  rw [Nat.min_eq_left (by omega)] at haddress hsize
  rw [Nat.min_eq_left (by omega)] at hsize
  simp only [directoryAt?, directoryOfSlot, directorySlotSize, Bytes.double, haddress, hsize]

theorem filterMap_directoryAt? {bytes : List UInt8} {index count : Nat}
    (h : Holds b (base + index * 8) bytes) (hcount : count ≤ (slotsOf bytes).length) :
    (List.range' index count).filterMap (directoryAt? b base) =
      (((slotsOf bytes).take count).zipIdx index).filterMap
        fun (slot, index) => directoryOfSlot slot index := by
  induction count generalizing index bytes with
  | zero => rfl
  | succ count ih =>
    have hlong : 8 ≤ bytes.length := by
      rw [length_slotsOf] at hcount
      omega
    have hfirst := directoryAt?_of_holds h hlong
    rw [slotsOf, if_pos hlong] at hcount ⊢
    have hnext : Holds b (base + (index + 1) * 8) (bytes.drop 8) := by
      rw [← List.take_append_drop 8 bytes] at h
      have hright := h.right
      rw [List.length_take, Nat.min_eq_left hlong] at hright
      rw [Nat.add_mul, Nat.one_mul, ← Nat.add_assoc]
      exact hright
    have hrest := ih hnext (by simpa using hcount)
    rw [List.range'_succ, List.take_succ_cons, List.zipIdx_cons, List.filterMap_cons,
      List.filterMap_cons, hfirst, hrest]

/-! ## The plan of an image -/

/-- `reserved` fills the DOS header up to its last number, `stub` the room before the signature,
and `padding` the rest of what is declared for the optional header. -/
structure Plan where
  dos : DosNumbers
  reserved : List UInt8
  stub : List UInt8
  coff : CoffNumbers
  optional : OptionalNumbers
  directories : List (UInt32 × UInt32)
  padding : List UInt8
  rows : List SectionNumbers
  rest : List UInt8
  reserved_length : reserved.length = 32
  offset_lt : 64 + stub.length < 4294967296
  optionalSize_lt :
    optional.layout.fixedSize + 8 * directories.length + padding.length < 65536
  rows_lt : rows.length < 65536

namespace Plan

variable (p : Plan)

def offset : Nat := 64 + p.stub.length

def optionalSize : Nat :=
  p.optional.layout.fixedSize + 8 * p.directories.length + p.padding.length

/-- Behind the fixed part of the optional header, as far as it is declared. -/
def area : List UInt8 := p.directories.flatMap directoryBytes ++ p.padding

def bytes : List UInt8 :=
  row p.dos.words ++ p.reserved ++ row [word32 (.ofNat p.offset)] ++ p.stub ++
    [0x50, 0x45, 0, 0] ++
    row (p.coff.words (.ofNat p.rows.length) (.ofNat p.optionalSize)) ++ row p.optional.words ++
    p.area ++ p.rows.flatMap SectionNumbers.bytes ++ p.rest

/-- What the slots behind the optional header hold: the directories, then the padding. -/
def slots : List (Nat × Nat) :=
  p.directories.map (fun d => (d.1.toNat, d.2.toNat)) ++ slotsOf p.padding

def slotCount : Nat :=
  min (min p.optional.directoryCount.toNat 16)
    ((p.optionalSize - p.optional.layout.fixedSize) / 8)

def headers : Headers where
  dos := p.dos.header p.offset
  file := p.coff.header p.rows.length p.optionalSize
  optional := some p.optional.header
  directories := directoriesOfSlots (p.slots.take p.slotCount)
  sectionTable := p.offset + 24 + p.optionalSize

theorem holds_parts : Holds (Bytes.ofList p.bytes) 0 p.bytes := by
  have h := Bytes.holds_ofList [] p.bytes []
  rwa [List.nil_append, List.append_nil] at h

end Plan

/-- Where the parts of a plan stand in a buffer. -/
structure Plan.Laid (p : Plan) (b : ByteArray) : Prop where
  dos : Holds b 0 (row p.dos.words)
  offset : Holds b 60 (row [word32 (.ofNat p.offset)])
  signature : Holds b p.offset [0x50, 0x45, 0, 0]
  file : Holds b (p.offset + 4) (row (p.coff.words (.ofNat p.rows.length) (.ofNat p.optionalSize)))
  optional : Holds b (p.offset + 24) (row p.optional.words)
  area : Holds b (p.offset + 24 + p.optional.layout.fixedSize) p.area
  rows : Holds b (p.offset + 24 + p.optionalSize) (p.rows.flatMap SectionNumbers.bytes)

theorem Plan.length_area (p : Plan) :
    p.area.length = 8 * p.directories.length + p.padding.length := by
  rw [Plan.area, List.length_append, List.length_flatMap]
  simp only [length_directoryBytes]
  simp [Nat.mul_comm]

theorem Plan.laid (p : Plan) : p.Laid (Bytes.ofList p.bytes) := by
  have h := p.holds_parts
  generalize Bytes.ofList p.bytes = b at h
  simp only [Plan.bytes, List.append_assoc] at h
  have h28 : Holds b 28 _ := h.next rfl
  have h60 : Holds b 60 _ := h28.next (by rw [p.reserved_length])
  have h64 : Holds b 64 _ := h60.next rfl
  have hsignature : Holds b p.offset _ := h64.next rfl
  have hfile : Holds b (p.offset + 4) _ := hsignature.next rfl
  have hoptional : Holds b (p.offset + 24) _ := hfile.next rfl
  have harea : Holds b (p.offset + 24 + p.optional.layout.fixedSize) _ :=
    hoptional.next (by rw [length_row_words])
  have hrows : Holds b (p.offset + 24 + p.optionalSize)
      (p.rows.flatMap SectionNumbers.bytes ++ p.rest) := by
    apply harea.next
    rw [p.length_area, Plan.optionalSize]
    omega
  exact ⟨h.left, h60.left, hsignature.left, hfile.left, hoptional.left, harea.left, hrows.left⟩

theorem holds_row {rows : List SectionNumbers} {i : Nat} (hi : i < rows.length)
    (h : Holds b base (rows.flatMap SectionNumbers.bytes)) :
    Holds b (base + i * sectionRowSize) rows[i].bytes := by
  induction rows generalizing base i with
  | nil => cases hi
  | cons s rows ih =>
    rw [List.flatMap_cons] at h
    cases i with
    | zero => simpa using h.left
    | succ i =>
      have hrest := ih (Nat.lt_of_succ_lt_succ hi) h.right
      rw [s.length_bytes] at hrest
      rw [Nat.succ_mul, Nat.add_comm (i * _), ← Nat.add_assoc]
      exact hrest

theorem Plan.sectionRows_eq {p : Plan} (hl : p.Laid b) (limit : Int) :
    p.headers.sectionRows b limit =
      (p.rows.map fun s => SectionRow.header s.header).take limit.toNat := by
  apply List.ext_getElem
  · rw [Headers.length_sectionRows, List.length_take, List.length_map]
    show (min (p.rows.length : Int) limit).toNat = _
    omega
  · intro i hi hj
    rw [List.length_take, List.length_map] at hj
    simp only [Headers.sectionRows, List.getElem_map, List.getElem_range, List.getElem_take]
    exact sectionRow_of_holds (holds_row (by omega) hl.rows)

theorem Plan.startsAsImage {p : Plan} (hl : p.Laid b) : startsAsImage b = true := by
  obtain ⟨rest, hrest⟩ := hl.dos
  exact startsAsImage_iff.2 ⟨_, hrest⟩

theorem Plan.signatureOffset_eq {p : Plan} (hl : p.Laid b) : signatureOffset b = p.offset := by
  have hread : Bytes.little b 60 4 = (UInt32.ofNat p.offset).toNat := hl.offset.reads.1
  exact hread.trans (UInt32.toNat_ofNat_of_lt' p.offset_lt)

theorem Plan.established {p : Plan} (hl : p.Laid b) : Established b := by
  have hoffset := p.signatureOffset_eq hl
  have hfile := hl.file.length_le (List.ne_nil_of_length_pos (Nat.succ_pos _))
  have hend : p.offset + 24 ≤ b.size := hfile
  refine ⟨?_, ?_, ?_⟩
  · have hlow : 64 ≤ p.offset := Nat.le_add_right ..
    omega
  · rw [signatureAt, hoffset]
    exact hl.signature.extract
  · rw [hoffset]
    exact hend

theorem Plan.fixedSize_le (p : Plan) : p.optional.layout.fixedSize ≤ p.optionalSize := by
  rw [Plan.optionalSize, Nat.add_assoc]
  exact Nat.le_add_right ..

theorem Plan.length_slots (p : Plan) :
    p.slots.length = (p.optionalSize - p.optional.layout.fixedSize) / 8 := by
  rw [Plan.slots, ← slotsOf_append, length_slotsOf]
  show p.area.length / 8 = _
  rw [p.length_area, Plan.optionalSize]
  omega

theorem Plan.fileFields_eq {p : Plan} (hl : p.Laid b) :
    fileFields b (p.offset + 4) = p.coff.header p.rows.length p.optionalSize := by
  have h := fileFields_of_holds hl.file
  have hsize : (UInt16.ofNat p.optionalSize).toNat = p.optionalSize :=
    UInt16.toNat_ofNat_of_lt' p.optionalSize_lt
  rwa [UInt16.toNat_ofNat_of_lt' p.rows_lt, hsize] at h

theorem Plan.hasOptional {p : Plan} (hl : p.Laid b) :
    HasOptional b (p.offset + 24) p.optionalSize := by
  have hfixed : 96 ≤ p.optional.layout.fixedSize := by
    cases p.optional.layout <;> simp [Layout.fixedSize]
  have hroom := hl.optional.length_le
    (List.ne_nil_of_length_pos (by rw [length_row_words]; omega))
  have hmagic : Bytes.word b (p.offset + 24) = p.optional.layout.magic.toNat :=
    (congrArg OptionalHeader.magicCode (optionalFields_of_holds hl.optional)).trans
      p.optional.header_magicCode
  have hdeclared := p.fixedSize_le
  rw [length_row_words] at hroom
  rw [HasOptional, hmagic, Layout.optionalFixedSize_magic]
  omega

theorem Plan.optionalPart_eq {p : Plan} (hl : p.Laid b) :
    optionalPart b (p.offset + 24) p.optionalSize = some p.optional.header := by
  rw [optionalPart, if_pos (p.hasOptional hl), optionalFields_of_holds hl.optional]

theorem Plan.directorySlots_eq {p : Plan} (hl : p.Laid b) :
    directorySlots b (p.offset + 24 + p.optional.layout.fixedSize) p.optionalSize
      p.optional.layout.fixedSize p.optional.directoryCount.toNat = p.slotCount := by
  have hroom : p.area.length ≤ b.size - (p.offset + 24 + p.optional.layout.fixedSize) := by
    by_cases harea : p.area = []
    · rw [harea]
      exact Nat.zero_le _
    · have hle := hl.area.length_le harea
      omega
  rw [p.length_area] at hroom
  rw [directorySlots, Plan.slotCount, Plan.optionalSize, maxDirectories, directorySlotSize]
  omega

theorem Plan.directoriesPart_eq {p : Plan} (hl : p.Laid b) :
    directoriesPart b (p.offset + 24) p.optionalSize (some p.optional.header) =
      directoriesOfSlots (p.slots.take p.slotCount) := by
  have hslots : slotsOf p.area = p.slots := slotsOf_append p.directories p.padding
  have hcount : p.slotCount ≤ (slotsOf p.area).length := by
    rw [hslots, p.length_slots]
    exact Nat.min_le_right ..
  have harea : Holds b (p.offset + 24 + p.optional.layout.fixedSize + 0 * 8) p.area := by
    rw [Nat.zero_mul]
    exact hl.area
  simp only [directoriesPart]
  rw [p.optional.header_magicCode, Layout.optionalFixedSize_magic,
    p.optional.header_directoryCount, p.directorySlots_eq hl, filterMap_directoryAt? harea hcount,
    hslots, directoriesOfSlots]

theorem Plan.headersOf_eq {p : Plan} (hl : p.Laid b) : headersOf b = p.headers := by
  have hoffset := p.signatureOffset_eq hl
  have hfile := p.fileFields_eq hl
  have hdeclared : (p.coff.header p.rows.length p.optionalSize).optionalHeaderSize =
      p.optionalSize := rfl
  rw [headersOf, hoffset]
  simp only [hfile, hdeclared, p.optionalPart_eq hl, p.directoriesPart_eq hl,
    dosFields_of_holds hl.dos hoffset]
  rfl

theorem Plan.decode_ofList (p : Plan) :
    Headers.decode (Bytes.ofList p.bytes) = .ok p.headers := by
  have hl := p.laid
  rw [decode_of_established (p.startsAsImage hl) (p.established hl), p.headersOf_eq hl]

/-- The numbers of a plan are decoded from its bytes. The directories are those of the slots that
are counted and declared, but for the slots of zeros. -/
theorem decode_plan (p : Plan) :
    Headers.decode (Bytes.ofList p.bytes) = .ok p.headers ∧
    (p.optional.header.baseOfData = none ↔ p.optional.layout.magic.toNat = pe32PlusMagic) ∧
    ∀ limit, p.headers.sectionRows (Bytes.ofList p.bytes) limit =
      (p.rows.map fun s => SectionRow.header s.header).take limit.toNat := by
  exact ⟨p.decode_ofList, p.optional.header_baseOfData, p.sectionRows_eq p.laid⟩

/-! ## A plan of an image -/

/-- An image of the 32-bit layout with one section of code, and a table of imports named for it. -/
def oneSection : Plan where
  dos := {
    lastPageBytes := 0x90, pages := 0, relocations := 0, headerParagraphs := 0, minParagraphs := 0
    maxParagraphs := 0, initialSS := 0, initialSP := 0, checksum := 0, initialIP := 0
    initialCS := 0, relocationTable := 0, overlay := 0 }
  reserved := List.replicate 32 0
  stub := List.replicate 64 0
  coff := {
    machine := 0x14C, timeDateStamp := 0x5F5E1000, symbolTable := 0, symbolCount := 0
    characteristics := 0x0102 }
  optional := {
    layout := .narrow {
      magic := 0x10B, baseOfData := 0x2000, imageBase := 0x400000, stackReserve := 0x100000
      stackCommit := 0x1000, heapReserve := 0x100000, heapCommit := 0x1000, notWide := by decide }
    majorLinkerVersion := 14, minorLinkerVersion := 0
    sizeOfCode := 0x1000, sizeOfInitializedData := 0x1000, sizeOfUninitializedData := 0
    entryPoint := 0x1000, baseOfCode := 0x1000
    sectionAlignment := 0x1000, fileAlignment := 0x200
    majorSystemVersion := 6, minorSystemVersion := 0, majorImageVersion := 0
    minorImageVersion := 0, majorSubsystemVersion := 6, minorSubsystemVersion := 0
    win32Version := 0, sizeOfImage := 0x2000, sizeOfHeaders := 0x200, checksum := 0
    subsystem := 3, dllCharacteristics := 0x8140, loaderFlags := 0, directoryCount := 16 }
  directories := (0, 0) :: (0x2000, 0x28) :: List.replicate 14 (0, 0)
  padding := []
  rows := [{
    name := [0x2E, 0x74, 0x65, 0x78, 0x74, 0, 0, 0], name_length := rfl
    virtualSize := 1024, virtualAddress := 0x1000, rawSize := 1024, rawPointer := 0x200
    relocations := 0, lineNumbers := 0, relocationCount := 0, lineNumberCount := 0
    characteristics := 0x60000020 }]
  rest := List.replicate 96 0 ++ (List.replicate 4 ((List.range 256).map UInt8.ofNat)).flatten
  reserved_length := rfl
  offset_lt := by decide
  optionalSize_lt := by decide
  rows_lt := by decide

theorem decode_plan_oneSection :
    Headers.decode (Bytes.ofList oneSection.bytes) = .ok oneSection.headers ∧
    oneSection.headers.directories = [⟨"Import Table", 0x2000, 0x28⟩] ∧
    oneSection.headers.sectionTable = 376 ∧
    (oneSection.optional.header.baseOfData = none ↔
      oneSection.optional.layout.magic.toNat = pe32PlusMagic) ∧
    oneSection.headers.sectionRows (Bytes.ofList oneSection.bytes) 96 = [.header {
      name := ".text", virtualSize := 1024, virtualAddress := 0x1000, rawSize := 1024
      rawPointer := 0x200, characteristics := 0x60000020 }] := by
  obtain ⟨hdecode, hbase, hrows⟩ := decode_plan oneSection
  refine ⟨hdecode, by decide +kernel, rfl, hbase, ?_⟩
  rw [hrows]
  decide +kernel

end PETriage.Image
