import PETriage.Proofs.Number.Spelled
import PETriage.Proofs.Report.Normalized

/-!
# Coherent analyses

An analysis says several things twice: a code and its name, a set of bits and the names of the
bits, a fact of a header and the same fact beside the headers. A payload may contradict itself in
all of them; what is made of it does not.
-/
namespace PETriage

/-! ## Whole numbers of a value -/

namespace Value

mutual
/-- The whole numbers that stand in a value, in their order. -/
def integers : Value → List Int
  | int n => [n]
  | list items => itemIntegers items
  | object fields => fieldIntegers fields
  | _ => []
def itemIntegers : List Value → List Int
  | [] => []
  | v :: rest => integers v ++ itemIntegers rest
def fieldIntegers : List (Text × Value) → List Int
  | [] => []
  | (_, v) :: rest => integers v ++ fieldIntegers rest
end

theorem mem_itemIntegers {n : Int} {items : List Value} :
    n ∈ itemIntegers items ↔ ∃ v ∈ items, n ∈ v.integers := by
  induction items with
  | nil => simp [itemIntegers]
  | cons v rest ih => simp [itemIntegers, ih]

theorem mem_fieldIntegers {n : Int} {fields : Fields} :
    n ∈ fieldIntegers fields ↔ ∃ f ∈ fields, n ∈ f.2.integers := by
  induction fields with
  | nil => simp [fieldIntegers]
  | cons f rest ih => simp [fieldIntegers, ih]

/-- No whole number in the value is negative. -/
def Unsigned (v : Value) : Prop := ∀ n ∈ v.integers, 0 ≤ n

@[simp]
theorem unsigned_nat (n : Nat) : (nat n).Unsigned := by
  simp [Unsigned, nat, integers]

@[simp]
theorem unsigned_int {n : Int} : (int n).Unsigned ↔ 0 ≤ n := by
  simp [Unsigned, integers]

@[simp]
theorem unsigned_str (t : Text) : (str t).Unsigned := by
  simp [Unsigned, integers]

@[simp]
theorem unsigned_orNull (n : Option Nat) : (orNull nat n).Unsigned := by
  cases n with
  | none => simp [Unsigned, orNull, integers]
  | some n => exact unsigned_nat n

theorem unsigned_list {items : List Value} (h : ∀ v ∈ items, v.Unsigned) :
    (list items).Unsigned := by
  intro n hn
  rw [integers, mem_itemIntegers] at hn
  obtain ⟨v, hv, hn⟩ := hn
  exact h v hv n hn

theorem unsigned_object {fields : Fields} (h : ∀ f ∈ fields, f.2.Unsigned) :
    (object fields).Unsigned := by
  intro n hn
  rw [integers, mem_fieldIntegers] at hn
  obtain ⟨f, hf, hn⟩ := hn
  exact h f hf n hn

@[simp]
theorem unsigned_texts (xs : List Text) : (Report.texts xs).Unsigned := by
  apply unsigned_list
  intro v hv
  obtain ⟨s, -, rfl⟩ := List.mem_map.1 hv
  exact unsigned_str s

end Value

namespace Image

/-- The names in a file header are those of its numbers. -/
structure FileHeader.Coherent (h : FileHeader) : Prop where
  timestamp : h.timestamp = timestampText h.timeDateStamp
  flags : h.flags = fileFlags.decode h.characteristics
  machine : h.machineCode ≠ 0 → h.machine = machineName h.machineCode

/-- The names in an optional header are those of its codes. -/
structure OptionalHeader.Coherent (h : OptionalHeader) : Prop where
  magic : h.magic = magicName h.magicCode
  subsystem : subsystemName h.subsystemCode = .ok h.subsystem

end Image

namespace Report

open Text (isBlankText)
open Image (DosHeader FileHeader OptionalHeader DataDirectory)

/-! ## Printed records -/

theorem unsigned_section {s : SectionEntry} (h : s.Canonical) : s.toValue.Unsigned := by
  apply Value.unsigned_object
  simp [h.virtualSize, h.rawSize, h.characteristics]

theorem unsigned_resource (r : Resource) : r.toValue.Unsigned := by
  apply Value.unsigned_object
  simp

theorem unsigned_dosValue (h : DosHeader) : (dosValue h).Unsigned := by
  apply Value.unsigned_object
  simp

theorem unsigned_fileValue (h : FileHeader) : (fileValue h).Unsigned := by
  apply Value.unsigned_object
  simp

theorem unsigned_optionalValue (h : OptionalHeader) : (optionalValue h).Unsigned := by
  apply Value.unsigned_object
  simp

theorem unsigned_directoryValue (d : DataDirectory) : (directoryValue d).Unsigned := by
  apply Value.unsigned_object
  simp

/-- The sections, headers, directories and resources of an analysis as they are printed. -/
def Analysis.records (a : Analysis) : List Value :=
  a.sections.map SectionEntry.toValue ++ (a.resources.getD []).map Resource.toValue ++
    a.dos.toList.map dosValue ++ a.file.toList.map fileValue ++
    a.optional.toList.map optionalValue ++ a.directories.map directoryValue

theorem unsigned_records {a : Analysis} (h : ∀ s ∈ a.sections, s.Canonical) :
    ∀ v ∈ a.records, v.Unsigned := by
  simp only [Analysis.records, List.forall_mem_append, List.forall_mem_map]
  exact ⟨⟨⟨⟨⟨fun s hs => unsigned_section (h s hs), fun r _ => unsigned_resource r⟩,
    fun d _ => unsigned_dosValue d⟩, fun f _ => unsigned_fileValue f⟩,
    fun o _ => unsigned_optionalValue o⟩, fun d _ => unsigned_directoryValue d⟩

/-! ## Addresses -/

def lowerHexDigits : List Char := "0123456789abcdef".toList

/-- `0x` and at least eight lower-case hexadecimal digits with the value that the section's
address has. -/
structure SectionEntry.Addressed (s : SectionEntry) (digits : List Char) : Prop where
  text : s.address = "0x" ++ String.ofList digits
  width : 8 ≤ digits.length
  lower : ∀ c ∈ digits, c ∈ lowerHexDigits
  value : ∃ n : Nat, Number.Spells 16 digits n ∧ s.addressValue? = some (n : Int)

theorem digitChar_mem_lowerHexDigits : ∀ d < 16, Nat.digitChar d ∈ lowerHexDigits := by
  decide +kernel

theorem exists_addressed {s : SectionEntry} (h : s.Canonical) :
    ∃ digits, s.Addressed digits := by
  obtain ⟨n, hn⟩ := h.address
  obtain ⟨ds, -, hd, hm, -⟩ := Number.leftpad_toDigits_eq_map (by decide : 1 < 16) 8 n
  have hspells := Number.spells_leftpad (by decide : 1 < 16) (by decide) 8 n
  refine ⟨(Nat.toDigits 16 n).leftpad 8 '0', ?_, ?_, ?_, n, hspells, ?_⟩
  · rw [hn, addressText, Number.hexPadded, Number.hexDigits, ← String.toList_inj]
    simp
  · rw [List.length_leftpad]
    exact Nat.le_max_left _ _
  · intro c hc
    rw [hm] at hc
    obtain ⟨d, hmem, rfl⟩ := List.mem_map.1 hc
    exact digitChar_mem_lowerHexDigits d (hd d hmem)
  · rw [SectionEntry.addressValue?, hn, addressText, Number.readHex?_hexPadded]

/-! ## Whole analyses -/

structure Analysis.Coherent (a : Analysis) : Prop where
  unsigned : ∀ v ∈ a.records, v.Unsigned
  addresses : ∀ s ∈ a.sections, ∃ digits, s.Addressed digits
  directories : ∀ d ∈ a.directories, ¬(d.address = 0 ∧ d.size = 0)
  file : ∀ h ∈ a.file, h.Coherent
  optional : ∀ h ∈ a.optional, h.Coherent
  knownMachine : ∀ h ∈ a.file, h.machine ≠ Image.unknown → a.machine = h.machine
  knownTimestamp : ∀ h ∈ a.file, h.timestamp ≠ Image.unknown → a.timestamp = h.timestamp
  names : ∀ s ∈ a.sections, isBlankText s.name = false
  machine : isBlankText a.machine = false
  timestamp : isBlankText a.timestamp = false

theorem Analysis.Canonical.coherent {a : Analysis} (h : a.Canonical) : a.Coherent where
  unsigned := unsigned_records h.sections
  addresses := fun s hs => exists_addressed (h.sections s hs)
  directories := fun d hd => (h.directories d hd).used
  file := by
    intro f hf
    have hc := h.file f hf
    exact ⟨hc.timestamp, hc.flags, hc.coded⟩
  optional := by
    intro o ho
    have hc := h.optional o ho
    exact ⟨hc.magic, hc.subsystem⟩
  knownMachine := h.knownMachine
  knownTimestamp := h.knownTimestamp
  names := fun s hs => (h.sections s hs).name
  machine := h.machine
  timestamp := h.timestamp

/-- Whatever a payload claims of itself, its analysis does not contradict itself, and neither does
one of the direct parser. -/
theorem normalize_coherent {raw : Raw} {room : Option Nat} {a : Analysis} (hr : raw.Accepted)
    (h : normalize raw room = .ok a) : a.Coherent := by
  have hc : a.Canonical := normalize_canonical hr h
  exact hc.coherent

/-- A code with the name of another one, a negative size, a blank name and an empty directory. -/
def contradictoryPayload : Fields := [
  ("machine_type", .str "IMAGE_FILE_MACHINE_ARM"),
  ("header", .object [
    ("file", .object [("machine", .str "IMAGE_FILE_MACHINE_AMD64"), ("machine_code", .str "0x14C"),
      ("characteristics", .int 2), ("timestamp", .str "yesterday")]),
    ("optional", .object [("subsystem", .str "IMAGE_SUBSYSTEM_NATIVE")]),
    ("dataDirectories", .list [.object [("index", .int 1), ("size", .int (-8))]])]),
  ("sections", .list [.object [("name", .str " "), ("virtual_address", .str "0x1000"),
    ("virtual_size", .int (-1))]])]

theorem normalize_coherent_contradictory :
    ∃ r, normalize (.value (.object contradictoryPayload)) = .ok r ∧
      r.machine = "IMAGE_FILE_MACHINE_I386" ∧ r.Coherent := by
  have hr : Raw.Accepted (.value (.object contradictoryPayload)) := .value contradictoryPayload
  obtain ⟨r, h, hm⟩ : ∃ r, normalize (.value (.object contradictoryPayload)) = .ok r ∧
      r.machine = "IMAGE_FILE_MACHINE_I386" := ⟨_, rfl, by decide +kernel⟩
  exact ⟨r, h, hm, normalize_coherent hr h⟩

end Report
end PETriage
