import PETriage.Proofs.Bytes
import PETriage.Proofs.Image.Front

/-!
# Buffers that have headers

The headers of a buffer are established by its first two letters, by its length and by the
signature where the DOS header points. `headersOf` says what they are then. Everything else in
them is optional, and no block is read that is not inside the buffer.
-/
namespace PETriage.Image

variable {b : ByteArray} {base declared : Nat}

/-! ## The parts of the headers -/

def dosFields (b : ByteArray) : DosHeader where
  magic := Number.hexPadded 4 (Bytes.word b 0)
  headerOffset := Bytes.double b 60
  lastPageBytes := Bytes.word b 2
  pages := Bytes.word b 4
  relocations := Bytes.word b 6
  headerParagraphs := Bytes.word b 8
  minParagraphs := Bytes.word b 10
  maxParagraphs := Bytes.word b 12
  initialSS := Bytes.word b 14
  initialSP := Bytes.word b 16
  checksum := Bytes.word b 18
  initialIP := Bytes.word b 20
  initialCS := Bytes.word b 22
  relocationTable := Bytes.word b 24
  overlay := Bytes.word b 26

theorem dosHeader_of_le (h : 64 ≤ b.size) : dosHeader b = .ok (dosFields b) := by
  simp only [dosHeader, throwIf_eq_ok_iff, block_eq_ok_iff]
  exact ⟨Nat.not_lt.2 h, by omega, h, rfl⟩

theorem dosHeader_of_lt (h : b.size < 64) : dosHeader b = .error (.shorterThanDos b.size) := by
  rw [dosHeader, dosSize, if_pos h]
  rfl

def fileFields (b : ByteArray) (base : Nat) : FileHeader :=
  .ofNumbers (Bytes.word b base) (Bytes.word b (base + 2)) (Bytes.double b (base + 4))
    (Bytes.double b (base + 8)) (Bytes.double b (base + 12)) (Bytes.word b (base + 16))
    (Bytes.word b (base + 18))

theorem fileHeader_of_le (h : base + 20 ≤ b.size) :
    fileHeader b base = .ok (fileFields b base) := by
  simp only [fileHeader, throwIf_eq_ok_iff, block_eq_ok_iff]
  exact ⟨Nat.not_lt.2 h, h, rfl⟩

theorem fileHeader_of_lt (h : b.size < base + 20) : fileHeader b base = .error .coffTruncated := by
  rw [fileHeader, coffSize, if_pos h]
  rfl

instance : Decidable (HasOptional b base declared) := inferInstanceAs (Decidable (_ ∧ _ ∧ _))

def optionalPart (b : ByteArray) (base declared : Nat) : Option OptionalHeader :=
  if HasOptional b base declared then some (optionalFields b base) else none

theorem optionalHeader_eq_part (b : ByteArray) (base declared : Nat) :
    optionalHeader b base declared = .ok (optionalPart b base declared) := by
  by_cases h : HasOptional b base declared
  · rw [optionalHeader_of_hasOptional h, optionalPart, if_pos h]
  · rw [optionalHeader_of_not_hasOptional h, optionalPart, if_neg h]

theorem optionalPart_eq_none_iff :
    optionalPart b base declared = none ↔ ¬HasOptional b base declared := by
  by_cases h : HasOptional b base declared
  · simp [optionalPart, h]
  · simp [optionalPart, h]

def directoriesPart (b : ByteArray) (base declared : Nat) :
    Option OptionalHeader → List DataDirectory
  | none => []
  | some o =>
    let fixed := optionalFixedSize o.magicCode
    (List.range' 0 (directorySlots b (base + fixed) declared fixed o.directoryCount)).filterMap
      (directoryAt? b (base + fixed))

/-- An optional header that was read is followed by slots that lie in the buffer. -/
theorem directoriesOf_eq_part (b : ByteArray) (base declared : Nat) :
    directoriesOf b base declared (optionalPart b base declared) =
      .ok (directoriesPart b base declared (optionalPart b base declared)) := by
  by_cases h : HasOptional b base declared
  · rw [optionalPart, if_pos h]
    exact directoriesOf_eq h.2.2
  · rw [optionalPart, if_neg h]
    rfl

/-! ## The headers as a whole -/

/-- Where the DOS header says that the signature stands. -/
def signatureOffset (b : ByteArray) : Nat := Bytes.double b 60

def signatureAt (b : ByteArray) : List UInt8 :=
  Bytes.toList (b.extract (signatureOffset b) (signatureOffset b + 4))

/-- What has to be there besides the first two letters. -/
structure Established (b : ByteArray) : Prop where
  long : 64 ≤ b.size
  signature : signatureAt b = [0x50, 0x45, 0, 0]
  file : signatureOffset b + 24 ≤ b.size

def headersOf (b : ByteArray) : Headers :=
  let base := signatureOffset b
  let file := fileFields b (base + 4)
  let optional := optionalPart b (base + 24) file.optionalHeaderSize
  { dos := dosFields b
    file := file
    optional := optional
    directories := directoriesPart b (base + 24) file.optionalHeaderSize optional
    sectionTable := base + 24 + file.optionalHeaderSize }

theorem decode_of_established (hs : startsAsImage b = true) (h : Established b) :
    Headers.decode b = .ok (headersOf b) := by
  have hfile : fileHeader b (signatureOffset b + 4) = .ok (fileFields b (signatureOffset b + 4)) :=
    fileHeader_of_le h.file
  have hsignature : ¬(signatureAt b != signature) = true := by simp [h.signature, signature]
  simp only [Headers.decode, throwIf_eq_ok_iff, bind_eq_ok_iff]
  refine ⟨by simp [hs], dosFields b, dosHeader_of_le h.long, ?_, hsignature, _, hfile, _,
    optionalHeader_eq_part b _ _, _, directoriesOf_eq_part b _ _, rfl⟩
  have hroom := h.file
  show ¬b.size < signatureOffset b + 4
  omega

/-- The ways in which a buffer that starts as an image is damaged. -/
inductive Damaged (b : ByteArray) : HeaderError → Prop
  | shorterThanDos (h : b.size < 64) : Damaged b (.shorterThanDos b.size)
  | signatureOutside (hl : 64 ≤ b.size) (h : b.size < signatureOffset b + 4) :
    Damaged b (.signatureOutside (signatureOffset b) b.size)
  | signatureMissing (hl : 64 ≤ b.size) (ho : signatureOffset b + 4 ≤ b.size)
    (h : signatureAt b ≠ [0x50, 0x45, 0, 0]) : Damaged b (.signatureMissing (signatureOffset b))
  | coffTruncated (hl : 64 ≤ b.size) (ho : signatureOffset b + 4 ≤ b.size)
    (hs : signatureAt b = [0x50, 0x45, 0, 0]) (h : b.size < signatureOffset b + 24) :
    Damaged b .coffTruncated

theorem damaged_or_established (b : ByteArray) : (∃ e, Damaged b e) ∨ Established b := by
  by_cases hl : 64 ≤ b.size
  · by_cases ho : signatureOffset b + 4 ≤ b.size
    · by_cases hs : signatureAt b = [0x50, 0x45, 0, 0]
      · by_cases hf : signatureOffset b + 24 ≤ b.size
        · exact .inr ⟨hl, hs, hf⟩
        · exact .inl ⟨_, .coffTruncated hl ho hs (by omega)⟩
      · exact .inl ⟨_, .signatureMissing hl ho hs⟩
    · exact .inl ⟨_, .signatureOutside hl (by omega)⟩
  · exact .inl ⟨_, .shorterThanDos (by omega)⟩

theorem decode_of_damaged {e : HeaderError} (hs : startsAsImage b = true) (h : Damaged b e) :
    Headers.decode b = .error e := by
  have hstart : ¬(!startsAsImage b) = true := by simp [hs]
  rw [Headers.decode, if_neg hstart]
  cases h with
  | shorterThanDos h =>
    rw [dosHeader_of_lt h]
    rfl
  | signatureOutside hl h =>
    rw [dosHeader_of_le hl]
    show (if b.size < signatureOffset b + 4 then _ else _) = _
    rw [if_pos h]
    rfl
  | signatureMissing hl ho h =>
    rw [dosHeader_of_le hl]
    show (if b.size < signatureOffset b + 4 then _ else
      if (signatureAt b != signature) = true then _ else _) = _
    rw [if_neg (by omega), if_pos (by simpa [signature] using h)]
    rfl
  | coffTruncated hl ho hs h =>
    have hfile : fileHeader b (signatureOffset b + 4) = .error .coffTruncated :=
      fileHeader_of_lt h
    rw [dosHeader_of_le hl]
    show (if b.size < signatureOffset b + 4 then _ else
      if (signatureAt b != signature) = true then _ else
        fileHeader b (signatureOffset b + 4) >>= _) = _
    rw [if_neg (by omega), if_neg (by simp [hs, signature]), hfile]
    rfl

theorem decode_of_not_startsAsImage (h : startsAsImage b = false) :
    Headers.decode b = .error .notImage := by
  rw [Headers.decode, if_pos (by simp [h])]
  rfl

/-! ## Which buffers are accepted -/

theorem startsAsImage_iff : startsAsImage b = true ↔ [0x4D, 0x5A] <+: Bytes.toList b := by
  have hlength := Bytes.length_toList b
  simp only [startsAsImage, Bool.and_eq_true, decide_eq_true_eq, beq_iff_eq]
  cases hb : Bytes.toList b with
  | nil =>
    rw [hb, List.length_nil] at hlength
    simp [← hlength]
  | cons x rest =>
    cases rest with
    | nil =>
      rw [hb, List.length_singleton] at hlength
      simp [← hlength]
    | cons y rest =>
      have hfirst : Bytes.byteAt b 0 = x.toNat := Bytes.byteAt_of_getElem? (by rw [hb]; rfl)
      have hsecond : Bytes.byteAt b 1 = y.toNat := Bytes.byteAt_of_getElem? (by rw [hb]; rfl)
      have hlong : 2 ≤ b.size := by
        rw [hb] at hlength
        simp only [List.length_cons] at hlength
        omega
      simp [hfirst, hsecond, hlong, ← UInt8.toNat_inj, eq_comm]

/-- A row of the section table, its bytes asked for before they are read. -/
def rowRead (b : ByteArray) (base : Nat) : Decoded SectionRow :=
  match sectionRow b base with
  | .beyond offset => .ok (.beyond offset)
  | .header h => do
    block b base sectionRowSize
    return .header h

theorem rowRead_eq (b : ByteArray) (base : Nat) : rowRead b base = .ok (sectionRow b base) := by
  by_cases h : b.size < base + sectionRowSize
  · simp [rowRead, sectionRow, h]
  · rw [rowRead, sectionRow, if_neg h]
    exact block_eq_ok_iff.2 ⟨Nat.not_lt.1 h, rfl⟩

def Headers.rowsRead (h : Headers) (b : ByteArray) (limit : Int) : Decoded (List SectionRow) :=
  (List.range (min (h.file.sectionCount : Int) limit).toNat).mapM fun i =>
    rowRead b (h.sectionTable + i * sectionRowSize)

theorem Headers.rowsRead_eq (h : Headers) (b : ByteArray) (limit : Int) :
    h.rowsRead b limit = .ok (h.sectionRows b limit) := by
  let place (i : Nat) := h.sectionTable + i * sectionRowSize
  have hrows := mapM_map_eq_ok (f := rowRead b) (g := place) (h := fun i => sectionRow b (place i))
    fun i (_ : i ∈ List.range (min (h.file.sectionCount : Int) limit).toNat) => rowRead_eq b _
  rw [List.mapM_map] at hrows
  exact hrows

/-- The error says that the image is damaged, and not that a block was read outside of it. -/
def HeaderError.IsDamage : HeaderError → Prop
  | shorterThanDos _ | signatureOutside .. | signatureMissing _ | coffTruncated => True
  | notImage | outside .. | directoryUnnamed _ => False

theorem Damaged.isDamage {e : HeaderError} (h : Damaged b e) : e.IsDamage := by
  cases h <;> trivial

theorem exists_damaged_iff : (∃ e, Damaged b e) ↔ b.size < 64 ∨ b.size < signatureOffset b + 4 ∨
    signatureAt b ≠ [0x50, 0x45, 0, 0] ∨ b.size < signatureOffset b + 24 := by
  constructor
  · rintro ⟨e, h⟩
    cases h with
    | shorterThanDos h => exact .inl h
    | signatureOutside _ h => exact .inr (.inl h)
    | signatureMissing _ _ h => exact .inr (.inr (.inl h))
    | coffTruncated _ _ _ h => exact .inr (.inr (.inr h))
  · intro h
    rcases damaged_or_established b with hd | ⟨hl, hs, hf⟩
    · exact hd
    · rcases h with h | h | h | h
      · omega
      · omega
      · exact absurd hs h
      · omega

theorem not_hasOptional_iff : ¬HasOptional b base declared ↔ declared < 2 ∨ b.size < base + 2 ∨
    b.size < base + if Bytes.word b base = 0x20B then 112 else 96 := by
  have hfixed : optionalFixedSize (Bytes.word b base) =
      if Bytes.word b base = 0x20B then 112 else 96 := by
    simp only [optionalFixedSize, pe32PlusMagic, beq_iff_eq]
  rw [HasOptional, hfixed]
  omega

/-- Headers are decoded from the buffers that start with the two letters and are not damaged. No
other failure is possible: every block of the headers and every row of the section table is read
inside the buffer. The optional header is missing only where it is too short, and then there are
no directories. -/
theorem decode_accepts (b : ByteArray) :
    (Headers.decode b = .error .notImage ↔ ¬[0x4D, 0x5A] <+: Bytes.toList b) ∧
    ((∃ e, Headers.decode b = .error e ∧ e.IsDamage) ↔ [0x4D, 0x5A] <+: Bytes.toList b ∧
      (b.size < 64 ∨ b.size < signatureOffset b + 4 ∨ signatureAt b ≠ [0x50, 0x45, 0, 0] ∨
        b.size < signatureOffset b + 24)) ∧
    (∀ e, Headers.decode b = .error e → e = .notImage ∨ e.IsDamage) ∧
    ∀ h, Headers.decode b = .ok h →
      (h.optional = none ↔ Bytes.word b (signatureOffset b + 20) < 2 ∨
        b.size < signatureOffset b + 24 + 2 ∨
        b.size < signatureOffset b + 24 +
          if Bytes.word b (signatureOffset b + 24) = 0x20B then 112 else 96) ∧
      (h.optional = none → h.directories = []) ∧
      ∀ limit, h.rowsRead b limit = .ok (h.sectionRows b limit) := by
  rw [← startsAsImage_iff, ← exists_damaged_iff]
  cases hs : startsAsImage b with
  | false =>
    rw [decode_of_not_startsAsImage hs]
    simp [HeaderError.IsDamage]
  | true =>
    rcases damaged_or_established b with ⟨e, he⟩ | hest
    · rw [decode_of_damaged hs he]
      have hne : e ≠ .notImage := by
        rintro rfl
        cases he
      refine ⟨by simp [hne], ⟨fun _ => ⟨rfl, e, he⟩, fun _ => ⟨e, rfl, he.isDamage⟩⟩, ?_, nofun⟩
      rintro _ ⟨⟩
      exact .inr he.isDamage
    · have hnone : ¬∃ e, Damaged b e := by
        obtain ⟨hl, hsignature, hf⟩ := hest
        rw [exists_damaged_iff]
        rintro (h | h | h | h)
        · omega
        · omega
        · exact h hsignature
        · omega
      rw [decode_of_established hs hest]
      refine ⟨by simp, by simp [hnone], nofun, ?_⟩
      rintro h ⟨⟩
      refine ⟨optionalPart_eq_none_iff.trans not_hasOptional_iff, ?_, Headers.rowsRead_eq _ b⟩
      intro hn
      show directoriesPart b _ _ (headersOf b).optional = []
      rw [hn]
      rfl

end PETriage.Image
