import PETriage.Proofs.Direct.Parse
import PETriage.Proofs.Loader.Payload

/-!
# The two ways of analysing an image agree

What the analysis of a loader's payload says of headers and sections is what the direct parser
says when its records hold the same numbers.
-/
namespace PETriage.Loader

open Report
open Image (Headers)

/-- Whatever headers the direct parser decodes, a loader can hold the same in its slots. -/
theorem decode_matches {b : ByteArray} {h : Headers} (hd : Headers.decode b = .ok h) :
    ∃ slots, Matches h slots := by
  simp only [Headers.decode, throwIf_eq_ok_iff, bind_eq_ok_iff] at hd
  obtain ⟨-, dos, hdos, -, -, file, hfile, optional, hoptional, directories, hdirectories, hd⟩ := hd
  cases hd
  obtain ⟨machine, count, stamp, table, symbols, size, bits, rfl⟩ :=
    Image.exists_ofNumbers_of_fileHeader hfile
  have hmagic := (Image.dosHeader_canonical hdos).magic
  rcases Image.optionalHeader_eq hoptional with rfl | rfl
  · cases hdirectories
    refine ⟨[], hmagic, rfl, rfl, rfl, ?_, ?_, Nat.zero_le _, rfl⟩
    · rintro o ⟨⟩
    · rintro o ⟨⟩
  · obtain ⟨slots, hn, hslots⟩ := directoriesFrom_eq_named hdirectories
    have hcount : slots.length ≤ 16 := by
      rw [hn, Image.directorySlots, Image.maxDirectories]
      omega
    refine ⟨slots, hmagic, rfl, rfl, rfl, ?_, ?_, hcount, hslots⟩
    · rintro o ⟨⟩
      rfl
    · rintro o ⟨⟩
      exact ⟨Bytes.little_lt b _ 2, rfl⟩

/-- The numbers that the direct parser holds of a section, zeros where it failed. -/
def heldNumbers : Direct.SectionResult → Nat × Nat × Nat × Nat
  | .measured h _ => (h.virtualAddress, h.virtualSize, h.rawSize, h.characteristics)
  | _ => (0, 0, 0, 0)

/-- A section with its statistics and a result of the direct parser hold the same numbers. -/
def SameNumbers (s : Section × Float × Float) (d : Direct.SectionResult) : Prop :=
  heldNumbers d = (s.1.virtualAddress, s.1.virtualSize, s.1.rawSize, s.1.characteristics)

theorem numbers_sectionOfDirect (d : Direct.SectionResult) :
    (sectionOfDirect d).numbers = (addressText (heldNumbers d).1, ((heldNumbers d).2.1 : Int),
      ((heldNumbers d).2.2.1 : Int), ((heldNumbers d).2.2.2 : Int)) := by
  have hzero : SectionEntry.unprocessed.numbers = (addressText 0, 0, 0, 0) := by
    rw [← show "0x00000000" = addressText 0 from rfl]
    rfl
  cases d with
  | measured header m => rfl
  | unmeasured header reason => exact hzero
  | failed index reason => exact hzero

theorem numbers_of_sameNumbers {s : Section × Float × Float} {d : Direct.SectionResult}
    (h : SameNumbers s d) :
    (sectionOf (sectionFields s.1 s.2.1 s.2.2)).numbers = (sectionOfDirect d).numbers := by
  rw [sectionOf_sectionFields, numbers_sectionOfDirect, h]

theorem numbers_of_forall₂ {sections : List (Section × Float × Float)}
    {found : List Direct.SectionResult} (h : List.Forall₂ SameNumbers sections found) :
    ((sections.map fun s => sectionFields s.1 s.2.1 s.2.2).map sectionOf).map SectionEntry.numbers =
      (found.map sectionOfDirect).map SectionEntry.numbers := by
  induction h with
  | nil => rfl
  | cons hs _ ih => simp only [List.map_cons, numbers_of_sameNumbers hs, ih]

theorem numbers_ofDirect (r : Direct.Result) :
    (Analysis.ofDirect r).sections.map SectionEntry.numbers =
      (r.sections.map sectionOfDirect).map SectionEntry.numbers ++
        if r.skipped = 0 then [] else [(SectionEntry.skipped r.skipped).numbers] := by
  rw [Analysis.ofDirect, List.map_append]
  by_cases hz : r.skipped = 0
  · simp [hz]
  · simp [hz]

/-- What a loader shows is normalized, and tells of headers and sections what a direct parse tells
whose records hold the same numbers. One that left sections out tells so behind them. -/
theorem payload_agrees_with_direct_parse {r : Direct.Result} {slots : List Slot}
    {sections : List (Section × Float × Float)} (hm : Matches r.headers slots)
    (hs : List.Forall₂ SameNumbers sections r.sections) (size : Nat) (imports : List Import)
    (resources : List Resource) (fileSize : Option Int) :
    ∃ p d, Report.normalize (.tagged (.object (payloadFields size
          (headerValue r.headers.dos r.headers.file r.headers.optional slots)
          (sections.map fun s => sectionFields s.1 s.2.1 s.2.2) imports resources)) fileSize) =
        .ok p ∧ Report.normalize (.direct r) = .ok d ∧
      p.dos = d.dos ∧ p.file = d.file ∧ p.optional = d.optional ∧ p.machine = d.machine ∧
      p.timestamp = d.timestamp ∧ p.directories = d.directories ∧
      d.sections.map SectionEntry.numbers = p.sections.map SectionEntry.numbers ++
        if r.skipped = 0 then [] else [(SectionEntry.skipped r.skipped).numbers] := by
  obtain ⟨p, hp, ht, hsections⟩ := ofPayload_tells hm size
    (sections.map fun s => sectionFields s.1 s.2.1 s.2.2) imports resources fileSize
  refine ⟨p, .ofDirect r, hp, rfl, ht.dos, ht.file, ht.optional, ht.machine, ht.timestamp,
    ht.directories, ?_⟩
  rw [hsections, numbers_of_forall₂ hs]
  exact numbers_ofDirect r

/-- A 64-bit program of one section that names its import table. -/
def programHeaders : Headers where
  dos := { magic := Number.hexPadded 4 0x5A4D, headerOffset := 0x80 }
  file := .ofNumbers 0x8664 1 0x5F000000 0 0 0xF0 0x22
  optional := some {
    magic := Image.magicName 0x20B, magicCode := 0x20B, entryPoint := 0x1000,
    imageBase := 0x140000000, subsystem := Image.subsystemNameOfWord 3, subsystemCode := 3,
    directoryCount := 2 }
  directories := [⟨"Import Table", 0x2000, 40⟩]
  sectionTable := 0x188

def programParse : Direct.Result where
  fileSize := 0x600
  headers := programHeaders
  sections := [.measured ⟨".text", 0x800, 0x1000, 0x200, 0x400, 0x60000020⟩
    ⟨5.5, 300.25, 0x200, false⟩]
  skipped := 0
  imports := none
  largeFile := false

def programSlots : List Slot := [⟨0, 0⟩, ⟨0x2000, 40⟩]

def programSections : List (Section × Float × Float) :=
  [(⟨[], 0x800, 0x1000, 0x200, 0x400, 0x60000020⟩, 5.5, 300.25)]

def programPayload : Fields :=
  payloadFields 0x600
    (headerValue programHeaders.dos programHeaders.file programHeaders.optional programSlots)
    (programSections.map fun s => sectionFields s.1 s.2.1 s.2.2) [] []

theorem program_payload_agrees :
    Matches programHeaders programSlots ∧
    List.Forall₂ SameNumbers programSections programParse.sections ∧
    ∃ p d, Report.normalize (.tagged (.object programPayload) none) = .ok p ∧
      Report.normalize (.direct programParse) = .ok d ∧ p.dos = d.dos ∧ p.file = d.file ∧
      p.optional = d.optional ∧ p.machine = d.machine ∧ p.timestamp = d.timestamp ∧
      p.directories = d.directories ∧
      d.sections.map SectionEntry.numbers = p.sections.map SectionEntry.numbers := by
  have hm : Matches programHeaders programSlots :=
    ⟨⟨_, rfl⟩, rfl, rfl, rfl, by rintro o ⟨⟩; rfl, by rintro o ⟨⟩; exact ⟨by decide, rfl⟩,
      by decide, rfl⟩
  have hs : List.Forall₂ SameNumbers programSections programParse.sections := .cons rfl .nil
  obtain ⟨p, d, hp, hd, hdos, hfile, hoptional, hmachine, htimestamp, hdirectories, hnumbers⟩ :=
    payload_agrees_with_direct_parse (r := programParse) hm hs 0x600 [] [] none
  exact ⟨hm, hs, p, d, hp, hd, hdos, hfile, hoptional, hmachine, htimestamp, hdirectories,
    hnumbers.trans (List.append_nil _)⟩

end PETriage.Loader
