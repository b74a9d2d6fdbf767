import Mathlib.Data.List.Basic
import PETriage.Proofs.Image.Decode

/-!
# Headers of the front of an image

A buffer that is cut short loses directories and rows of the section table at its end. What
can still be decoded from it is what the whole buffer has there.
-/
namespace PETriage

namespace Bytes

variable {b : ByteArray} {i offset width start stop : Nat}

theorem byteAt_append (x : ByteArray) (h : i < b.size) : byteAt (b ++ x) i = byteAt b i := by
  have hi : i < (b ++ x).size := by
    rw [ByteArray.size_append]
    omega
  rw [byteAt, byteAt, dif_pos h, dif_pos hi, ByteArray.getElem_append_left h]

theorem little_append (x : ByteArray) (h : offset + width ≤ b.size) :
    little (b ++ x) offset width = little b offset width := by
  induction width generalizing offset with
  | zero => rfl
  | succ width ih =>
    have hfirst : byteAt (b ++ x) offset = byteAt b offset := byteAt_append x (by omega)
    have hrest : little (b ++ x) (offset + 1) width = little b (offset + 1) width :=
      ih (by omega)
    rw [little, little, hfirst, hrest]

theorem extract_append_of_le (x : ByteArray) (h : stop ≤ b.size) :
    (b ++ x).extract start stop = b.extract start stop := by
  rw [ByteArray.extract_append]
  have hempty : x.extract (start - b.size) (stop - b.size) = ByteArray.empty := by
    rw [Nat.sub_eq_zero_of_le h]
    simp
  rw [hempty, ByteArray.append_empty]

end Bytes

namespace Image

variable {b : ByteArray} {base declared index count more : Nat}

theorem size_le_size_append (b x : ByteArray) : b.size ≤ (b ++ x).size := by
  rw [ByteArray.size_append]
  omega

/-- A block that is read lies in the buffer, when what follows comes to a value. -/
theorem block_eq_ok_iff {α : Type} {offset size : Nat} {rest : Decoded α} {a : α} :
    (block b offset size >>= fun _ => rest) = .ok a ↔ offset + size ≤ b.size ∧ rest = .ok a := by
  by_cases h : offset + size ≤ b.size
  · simp [block, h, bind, Except.bind]
  · simp [block, h, bind, Except.bind]

theorem startsAsImage_append (x : ByteArray) (h : startsAsImage b = true) :
    startsAsImage (b ++ x) = true := by
  have hsize := size_le_size_append b x
  simp only [startsAsImage, Bool.and_eq_true, decide_eq_true_eq, beq_iff_eq] at h ⊢
  obtain ⟨⟨h2, h0⟩, h1⟩ := h
  rw [Bytes.byteAt_append x (by omega), Bytes.byteAt_append x (by omega)]
  exact ⟨⟨by omega, h0⟩, h1⟩

theorem dosHeader_append (x : ByteArray) {h : DosHeader} (hd : dosHeader b = .ok h) :
    dosHeader (b ++ x) = .ok h := by
  have hsize := size_le_size_append b x
  simp only [dosHeader, throwIf_eq_ok_iff, block_eq_ok_iff] at hd ⊢
  obtain ⟨hlong, h28, h64, hd⟩ := hd
  refine ⟨by omega, by omega, by omega, ?_⟩
  rw [← hd]
  simp (disch := omega) only [Bytes.word, Bytes.double, Bytes.little_append]

theorem fileHeader_append (x : ByteArray) {h : FileHeader} (hf : fileHeader b base = .ok h) :
    fileHeader (b ++ x) base = .ok h := by
  have hsize := size_le_size_append b x
  simp only [fileHeader, throwIf_eq_ok_iff, block_eq_ok_iff] at hf ⊢
  obtain ⟨hlong, hblock, hf⟩ := hf
  refine ⟨by omega, by omega, ?_⟩
  rw [coffSize] at hblock
  rw [← hf]
  simp (disch := omega) only [Bytes.word, Bytes.double, Bytes.little_append]

theorem optionalFixedSize_ge (magic : Nat) : 96 ≤ optionalFixedSize magic := by
  unfold optionalFixedSize
  split
  · decide
  · decide

theorem optionalFields_append (x : ByteArray)
    (h : base + optionalFixedSize (Bytes.word b base) ≤ b.size) :
    optionalFields (b ++ x) base = optionalFields b base := by
  have hmin := optionalFixedSize_ge (Bytes.word b base)
  have hmagic : Bytes.word (b ++ x) base = Bytes.word b base := Bytes.little_append x (by omega)
  unfold optionalFields
  rw [hmagic]
  unfold optionalFixedSize at h
  cases hplus : Bytes.word b base == pe32PlusMagic with
  | true =>
    simp only [hplus, if_true] at h ⊢
    simp (disch := omega) only [Bytes.word, Bytes.double, Bytes.quad, Bytes.little_append,
      Bytes.byteAt_append]
  | false =>
    simp only [hplus, Bool.false_eq_true, if_false] at h ⊢
    simp (disch := omega) only [Bytes.word, Bytes.double, Bytes.little_append,
      Bytes.byteAt_append]

/-- Room for an optional header: it is declared, and the buffer holds its fixed part. -/
def HasOptional (b : ByteArray) (base declared : Nat) : Prop :=
  base + 2 ≤ b.size ∧ 2 ≤ declared ∧ base + optionalFixedSize (Bytes.word b base) ≤ b.size

theorem optionalHeader_of_hasOptional (h : HasOptional b base declared) :
    optionalHeader b base declared = .ok (some (optionalFields b base)) := by
  obtain ⟨hmagic, hdeclared, hfixed⟩ := h
  have hroom : ¬(b.size < base + 2 ∨ declared < 2) := by omega
  have hfixed' : ¬b.size < base + optionalFixedSize (Bytes.word b base) := by omega
  unfold optionalHeader
  rw [if_neg hroom]
  refine block_eq_ok_iff.2 ⟨hmagic, ?_⟩
  rw [if_neg hfixed']
  exact block_eq_ok_iff.2 ⟨hfixed, rfl⟩

theorem optionalHeader_of_not_hasOptional (h : ¬HasOptional b base declared) :
    optionalHeader b base declared = .ok none := by
  unfold optionalHeader
  split
  · rfl
  rename_i hroom
  refine block_eq_ok_iff.2 ⟨by omega, ?_⟩
  have hfixed : b.size < base + optionalFixedSize (Bytes.word b base) := by
    by_contra hn
    exact h ⟨by omega, by omega, by omega⟩
  exact if_pos hfixed

theorem HasOptional.append (x : ByteArray) (h : HasOptional b base declared) :
    HasOptional (b ++ x) base declared := by
  have hsize := size_le_size_append b x
  obtain ⟨hmagic, hdeclared, hfixed⟩ := h
  have hword : Bytes.word (b ++ x) base = Bytes.word b base := Bytes.little_append x hmagic
  refine ⟨by omega, hdeclared, ?_⟩
  rw [hword]
  omega

/-- The directory in a slot, when the slot holds one. -/
def directoryAt? (b : ByteArray) (base index : Nat) : Option DataDirectory :=
  let slot := base + index * directorySlotSize
  if Bytes.double b slot = 0 ∧ Bytes.double b (slot + 4) = 0 then none
  else directoryNames[index]?.map fun name : String =>
    ⟨name, Bytes.double b slot, Bytes.double b (slot + 4)⟩

theorem directoriesFrom_eq (hnamed : index + count ≤ maxDirectories)
    (hroom : base + (index + count) * directorySlotSize ≤ b.size) :
    directoriesFrom b base index count =
      .ok ((List.range' index count).filterMap (directoryAt? b base)) := by
  induction count generalizing index with
  | zero => rfl
  | succ count ih =>
    have hslot : base + index * directorySlotSize + directorySlotSize ≤ b.size := by
      rw [directorySlotSize] at hroom ⊢
      omega
    have hrest : directoriesFrom b base (index + 1) count =
        .ok ((List.range' (index + 1) count).filterMap (directoryAt? b base)) := by
      refine ih (by omega) ?_
      rw [Nat.add_assoc, Nat.add_comm 1 count]
      exact hroom
    have hindex : index < directoryNames.length := by
      rw [length_directoryNames]
      exact Nat.lt_of_lt_of_le (by omega) hnamed
    rw [directoriesFrom, List.range'_succ, List.filterMap_cons]
    refine block_eq_ok_iff.2 ⟨hslot, ?_⟩
    by_cases hzero : Bytes.double b (base + index * directorySlotSize) = 0 ∧
        Bytes.double b (base + index * directorySlotSize + 4) = 0
    · have hnone : directoryAt? b base index = none := if_pos hzero
      rw [if_pos (by simpa using hzero), hrest, hnone]
    · have hsome : directoryAt? b base index = some ⟨directoryNames[index],
          Bytes.double b (base + index * directorySlotSize),
          Bytes.double b (base + index * directorySlotSize + 4)⟩ := by
        rw [directoryAt?, if_neg hzero, List.getElem?_eq_getElem hindex, Option.map_some]
      have hname : directoryName index = .ok directoryNames[index] := by
        rw [directoryName, List.getElem?_eq_getElem hindex]
      rw [if_neg (by simpa using hzero), hname, hrest, hsome]
      rfl

theorem directoryAt?_append (x : ByteArray)
    (h : base + (index + 1) * directorySlotSize ≤ b.size) :
    directoryAt? (b ++ x) base index = directoryAt? b base index := by
  rw [directorySlotSize] at h
  unfold directoryAt? directorySlotSize
  simp (disch := omega) only [Bytes.double, Bytes.little_append]

theorem directorySlots_le (b : ByteArray) (base declared fixed counted : Nat) (h : base ≤ b.size) :
    directorySlots b base declared fixed counted ≤ maxDirectories ∧
      base + directorySlots b base declared fixed counted * directorySlotSize ≤ b.size := by
  unfold directorySlots directorySlotSize
  omega

theorem directorySlots_append (b x : ByteArray) (base declared fixed counted : Nat) :
    directorySlots b base declared fixed counted ≤
      directorySlots (b ++ x) base declared fixed counted := by
  have hsize := size_le_size_append b x
  unfold directorySlots directorySlotSize
  omega

theorem directoriesOf_eq {o : OptionalHeader}
    (h : base + optionalFixedSize o.magicCode ≤ b.size) :
    directoriesOf b base declared (some o) =
      .ok ((List.range' 0 (directorySlots b (base + optionalFixedSize o.magicCode) declared
        (optionalFixedSize o.magicCode) o.directoryCount)).filterMap
          (directoryAt? b (base + optionalFixedSize o.magicCode))) := by
  obtain ⟨hnamed, hroom⟩ :=
    directorySlots_le b _ declared (optionalFixedSize o.magicCode) o.directoryCount h
  exact directoriesFrom_eq (by omega) (by simpa using hroom)

/-- Slots that the front holds read the same in the whole, and more slots only add to the end. -/
theorem directories_append (x : ByteArray) (hroom : base + count * directorySlotSize ≤ b.size)
    (hmore : count ≤ more) :
    (List.range' 0 count).filterMap (directoryAt? b base) <+:
      (List.range' 0 more).filterMap (directoryAt? (b ++ x) base) := by
  have hsame : (List.range' 0 count).filterMap (directoryAt? b base) =
      (List.range' 0 count).filterMap (directoryAt? (b ++ x) base) := by
    refine List.filterMap_congr fun i hi => ?_
    have hlt : i < count := by simpa using hi
    refine (directoryAt?_append x ?_).symm
    rw [directorySlotSize] at hroom ⊢
    omega
  have hslots : List.range' 0 count <+: List.range' 0 more := by
    refine ⟨List.range' (0 + count) (more - count), ?_⟩
    rw [List.range'_append_1, Nat.add_sub_of_le hmore]
  rw [hsame]
  exact hslots.filterMap _

theorem directoriesOf_append (x : ByteArray) (declared : Nat) (o : OptionalHeader)
    (h : base + optionalFixedSize o.magicCode ≤ b.size) :
    ∃ ds es, directoriesOf b base declared (some o) = .ok ds ∧
      directoriesOf (b ++ x) base declared (some o) = .ok es ∧ ds <+: es := by
  have hsize := size_le_size_append b x
  obtain ⟨-, hroom⟩ :=
    directorySlots_le b _ declared (optionalFixedSize o.magicCode) o.directoryCount h
  exact ⟨_, _, directoriesOf_eq h, directoriesOf_eq (by omega),
    directories_append x hroom (directorySlots_append b x _ declared _ o.directoryCount)⟩

/-- The whole has the optional header of its front, or one that the front was too short for. -/
theorem optionalPart_append (x : ByteArray) {front : Option OptionalHeader}
    {ds : List DataDirectory} (ho : optionalHeader b base declared = .ok front)
    (hds : directoriesOf b base declared front = .ok ds) :
    ∃ whole es, optionalHeader (b ++ x) base declared = .ok whole ∧
      directoriesOf (b ++ x) base declared whole = .ok es ∧
      (∀ o, front = some o → whole = some o) ∧ ds <+: es := by
  by_cases hfront : HasOptional b base declared
  · rw [optionalHeader_of_hasOptional hfront] at ho
    cases ho
    obtain ⟨ds', es, hds', hes, hprefix⟩ :=
      directoriesOf_append x declared (optionalFields b base) hfront.2.2
    have hsame : ds = ds' := Except.ok.inj (hds.symm.trans hds')
    refine ⟨_, es, optionalHeader_of_hasOptional (hfront.append x), ?_, ?_, ?_⟩
    · rw [optionalFields_append x hfront.2.2]
      exact hes
    · rw [optionalFields_append x hfront.2.2]
      exact fun o h => h
    · rw [hsame]
      exact hprefix
  · rw [optionalHeader_of_not_hasOptional hfront] at ho
    cases ho
    cases hds
    by_cases hwhole : HasOptional (b ++ x) base declared
    · exact ⟨_, _, optionalHeader_of_hasOptional hwhole, directoriesOf_eq hwhole.2.2, nofun,
        List.nil_prefix⟩
    · exact ⟨none, [], optionalHeader_of_not_hasOptional hwhole, rfl, nofun, List.nil_prefix⟩

/-- What the headers of a whole buffer keep of the headers of its front. -/
structure Headers.Front (front whole : Headers) : Prop where
  dos : whole.dos = front.dos
  file : whole.file = front.file
  sectionTable : whole.sectionTable = front.sectionTable
  optional : ∀ o, front.optional = some o → whole.optional = some o
  directories : front.directories <+: whole.directories

theorem decode_append (x : ByteArray) {front : Headers} (h : Headers.decode b = .ok front) :
    ∃ whole, Headers.decode (b ++ x) = .ok whole ∧ front.Front whole := by
  have hsize := size_le_size_append b x
  simp only [Headers.decode, throwIf_eq_ok_iff, bind_eq_ok_iff] at h ⊢
  obtain ⟨hstart, dos, hdos, hsignature, hmark, file, hfile, optional, hoptional, ds, hds, h⟩ := h
  cases h
  have hstart' : startsAsImage (b ++ x) = true := startsAsImage_append x (by simpa using hstart)
  have hmark' : ¬(Bytes.toList ((b ++ x).extract dos.headerOffset (dos.headerOffset + 4)) !=
      signature) = true := by
    rw [Bytes.extract_append_of_le x (by omega)]
    exact hmark
  obtain ⟨o, es, ho, hes, hsome, hprefix⟩ := optionalPart_append x hoptional hds
  exact ⟨⟨dos, file, o, es, _⟩, ⟨by simpa using hstart', dos, dosHeader_append x hdos, by omega,
    hmark', file, fileHeader_append x hfile, o, ho, es, hes, rfl⟩, rfl, rfl, rfl, hsome, hprefix⟩

theorem sectionRow_append (x : ByteArray) {h : SectionHeader} (hr : sectionRow b base = .header h) :
    sectionRow (b ++ x) base = .header h := by
  have hsize := size_le_size_append b x
  unfold sectionRow sectionRowSize at hr ⊢
  split at hr
  · cases hr
  · rename_i hin
    rw [if_neg (by omega), ← hr, Bytes.extract_append_of_le x (by omega)]
    simp (disch := omega) only [Bytes.double, Bytes.little_append]

section Rows

variable {front whole : Headers} {limit limit' : Int}

theorem Headers.length_sectionRows (h : Headers) (b : ByteArray) (limit : Int) :
    (h.sectionRows b limit).length = (min (h.file.sectionCount : Int) limit).toNat := by
  rw [sectionRows, List.length_map, List.length_range]

theorem Headers.getElem?_sectionRows {h : Headers} {i : Nat} {row : SectionRow} :
    (h.sectionRows b limit)[i]? = some row ↔ i < (min (h.file.sectionCount : Int) limit).toNat ∧
      sectionRow b (h.sectionTable + i * sectionRowSize) = row := by
  simp only [sectionRows, List.getElem?_map, Option.map_eq_some_iff, List.getElem?_eq_some_iff,
    List.getElem_range, List.length_range]
  constructor
  · rintro ⟨j, ⟨hi, rfl⟩, hrow⟩
    exact ⟨hi, hrow⟩
  · rintro ⟨hi, hrow⟩
    exact ⟨i, ⟨hi, rfl⟩, hrow⟩

theorem Headers.Front.length_sectionRows (h : front.Front whole) (b b' : ByteArray) :
    (whole.sectionRows b' limit).length = (front.sectionRows b limit).length := by
  rw [Headers.length_sectionRows, Headers.length_sectionRows, h.file]

/-- A row that the front holds is the same row of the whole, under that limit or a larger one. -/
theorem Headers.Front.getElem?_sectionRows (h : front.Front whole) (x : ByteArray)
    (hlimit : limit ≤ limit') {i : Nat} {header : SectionHeader}
    (hrow : (front.sectionRows b limit)[i]? = some (.header header)) :
    (whole.sectionRows (b ++ x) limit')[i]? = some (.header header) := by
  rw [Headers.getElem?_sectionRows] at hrow ⊢
  obtain ⟨hi, hrow⟩ := hrow
  rw [h.file, h.sectionTable]
  exact ⟨by omega, sectionRow_append x hrow⟩

end Rows

end Image
end PETriage
