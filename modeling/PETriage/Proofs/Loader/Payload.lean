import PETriage.Proofs.Loader.Headers
import PETriage.Proofs.Report.Records

/-!
# A loader's payload is normalized

Whatever an image imports and whatever resources it has, the payload of a loader is turned into
an analysis, and what that says of the headers is what the loader's numbers say.
-/
namespace PETriage

open Report

/-- What an entry tells of a section but for its name and its statistics. -/
def Report.SectionEntry.numbers (s : SectionEntry) : String × Int × Int × Int :=
  (s.address, s.virtualSize, s.rawSize, s.characteristics)

namespace Loader

open Text (isBlankText)
open Image (DosHeader FileHeader OptionalHeader DataDirectory Headers)

/-! ## Sections, imports and resources -/

theorem sectionOf_sectionFields (s : Section) (entropy chiSquare : Float) :
    (sectionOf (sectionFields s entropy chiSquare)).numbers =
      (addressText s.virtualAddress, (s.virtualSize : Int), (s.rawSize : Int),
        (s.characteristics : Int)) := by
  have haddress : Field.sectionAddress.resolve (sectionFields s entropy chiSquare) =
      s.virtualAddress := rfl
  have hvsize : Field.sectionVirtualSize.resolve (sectionFields s entropy chiSquare) =
      s.virtualSize := rfl
  have hrsize : Field.sectionRawSize.resolve (sectionFields s entropy chiSquare) = s.rawSize := rfl
  have hbits : Field.sectionCharacteristics.resolve (sectionFields s entropy chiSquare) =
      s.characteristics := rfl
  have hentropy : Field.sectionEntropy.resolve (sectionFields s entropy chiSquare) =
      .ok entropy := rfl
  have hchi : Field.sectionChiSquare.resolve (sectionFields s entropy chiSquare) =
      .ok chiSquare := rfl
  obtain ⟨o, ho⟩ : ∃ o : Fields, sectionFields s entropy chiSquare = .object o := ⟨_, rfl⟩
  rw [ho] at haddress hvsize hrsize hbits hentropy hchi ⊢
  simp only [sectionOf, sectionOf?, haddress, hvsize, hrsize, hbits, hentropy, hchi,
    Option.getD_some, SectionEntry.numbers]

theorem importsOf_importValues (imports : List Import) :
    ∃ found, importsOf (.list (imports.map importValue)) = .ok found := by
  have hone : ∀ i ∈ imports, importOf? (importValue i) =
      .ok (some ⟨Field.importLibrary.resolve (importValue i), i.functions⟩) := by
    intro i _
    have hf : functionsOf (some (.list (i.functions.map .str))) = .ok i.functions :=
      functionsOf_texts i.functions
    obtain ⟨o, ho, hk⟩ : ∃ o : Fields, importValue i = .object o ∧
        o.get? "functions" = some (.list (i.functions.map .str)) := ⟨_, rfl, rfl⟩
    rw [ho, importOf?, hk, hf]
    rfl
  rw [importsOf, mapM_map_eq_ok hone]
  exact ⟨_, rfl⟩

theorem isBlankText_languages : ∀ entry ∈ languages, isBlankText entry.2 = false := by
  simp only [languages, List.forall_mem_cons]
  and_intros
  all_goals first | exact Text.isBlankText_of_first _ rfl | nofun

theorem isBlankText_languageName (code : Nat) :
    isBlankText ((languages.name? code).getD "Unknown") = false := by
  cases hn : languages.name? code with
  | none => rfl
  | some name =>
    obtain ⟨entry, hf, rfl⟩ := Option.map_eq_some_iff.1 hn
    exact isBlankText_languages entry (List.mem_of_find?_eq_some hf)

theorem resourceOf?_resourceValue (r : Resource) :
    ∃ found, resourceOf? (resourceValue r) = .ok (some found) := by
  have hlanguage : Field.resourceLanguage.resolve (resourceValue r) =
      .name ((languages.name? r.language).getD "Unknown") := by
    have hb := isBlankText_languageName r.language
    obtain ⟨o, ho, hdirect, hinner⟩ : ∃ o : Fields, resourceValue r = .object o ∧
        Field.textAt? "language" [] o = none ∧ Field.follow? o "language" ["name"] =
          some (.str ((languages.name? r.language).getD "Unknown")) := ⟨_, rfl, rfl, rfl⟩
    have hnamed : Field.textAt? "language" ["name"] o =
        some (.ofString ((languages.name? r.language).getD "Unknown")) := by
      simp only [Field.textAt?, hinner, hb, Bool.false_eq_true, ↓reduceIte]
    simp only [ho, Field.resourceLanguage, Field.Spec.resolve, Field.Spec.find?,
      List.findSome?_cons, hdirect, hnamed, Option.map_none, Option.map_some, Option.getD_some]
  have hentropy : Field.resourceEntropy.resolve (resourceValue r) = .ok r.entropy := rfl
  obtain ⟨o, ho⟩ : ∃ o : Fields, resourceValue r = .object o := ⟨_, rfl⟩
  rw [ho] at hlanguage hentropy ⊢
  simp only [resourceOf?, hlanguage, hentropy]
  exact ⟨_, rfl⟩

theorem resourcesOf_resourceValues (resources : List Resource) :
    ∃ found, resourcesOf (.list (resources.map resourceValue)) = .ok found := by
  choose found hfound using resourceOf?_resourceValue
  rw [resourcesOf, mapM_map_eq_ok (h := some ∘ found) fun r _ => hfound r]
  exact ⟨_, rfl⟩

/-! ## Whole payloads -/

def payloadFields (size : Nat) (header : Value) (sections : List Value)
    (imports : List Import) (resources : List Resource) : Fields := [
  ("format", .str "pe"),
  ("fileSize", .nat size),
  ("header", header),
  ("sections", .list sections),
  ("imports", .list (imports.map importValue)),
  ("resources", .list (resources.map resourceValue))]

theorem exists_of_payload {b : ByteArray} {p : Value} (h : payload b = .ok p) :
    ∃ (v : View) (imports : List Import) (resources : List Resource), View.ofBytes b = .ok v ∧
      p = .object (payloadFields b.size (headerValue v.dos v.file (some v.optional) v.slots)
        (v.sections.map (sectionValue v)) imports resources) := by
  simp only [payload, bind_eq_ok_iff, mapError_eq_ok_iff] at h
  obtain ⟨v, hv, ⟨imports, resources⟩, -, h⟩ := h
  cases h
  exact ⟨v, imports, resources, hv, rfl⟩

/-- The records hold the texts that a parser writes beside their numbers, and the directories are
those of a loader's slots. -/
structure Matches (h : Headers) (slots : List Slot) : Prop where
  dos : ∃ magic, h.dos.magic = Number.hexPadded 4 magic
  machine : h.file.machine = Image.machineName h.file.machineCode
  timestamp : h.file.timestamp = Image.timestampText h.file.timeDateStamp
  flags : h.file.flags = Image.fileFlags.decode h.file.characteristics
  magic : ∀ o ∈ h.optional, o.magic = Image.magicName o.magicCode
  subsystem : ∀ o ∈ h.optional, o.subsystemCode < 65536 ∧
    o.subsystem = Image.subsystemNameOfWord o.subsystemCode
  count : slots.length ≤ 16
  directories : h.directories = h.optional.elim [] fun _ => namedDirectories slots

theorem Matches.optional_canonical {h : Headers} {slots : List Slot} (hm : Matches h slots) :
    ∀ o ∈ h.optional, o.Canonical := by
  intro o ho
  obtain ⟨hword, hname⟩ := hm.subsystem o ho
  exact ⟨hm.magic o ho, hname ▸ Image.subsystemName_of_word hword⟩

structure Tells (a : Analysis) (h : Headers) : Prop where
  dos : a.dos = some h.dos
  file : a.file = some h.file
  optional : a.optional = h.optional
  machine : a.machine = h.file.machine
  timestamp : a.timestamp = h.file.timestamp
  directories : a.directories = h.directories

theorem knownOr_unknown (text : Text) : knownOr (some text) Image.unknown = text := by
  rw [knownOr]
  split
  · exact Eq.symm ‹_›
  · rfl

/-- A payload without a machine or a time of its own says what its headers say. -/
theorem assemble_tells {o : Fields} {parts : Parts} {h : Headers} {fileSize : Option Int}
    (hmachine : Field.machineType.resolve (.object o) = Image.unknown)
    (htimestamp : Field.timestamp.resolve (.object o) = Image.unknown)
    (himports : ∃ found, importsOf (fieldOrNull o "imports") = .ok found)
    (hresources : ∃ found, resourcesOf (fieldOrNull o "resources") = .ok found)
    (hdos : objectOrNone dosOf parts.dos = some h.dos)
    (hfile : objectOrNone fileOf parts.file = some h.file)
    (hoptional : (objectOrNone optionalOf parts.optional).mapM id = .ok h.optional)
    (hdirectories : directoriesOf parts.directories = h.directories) :
    ∃ a, Analysis.assemble o parts fileSize = .ok a ∧ Tells a h ∧
      a.sections = sectionsOf (fieldOrNull o "sections") := by
  obtain ⟨imports, himports⟩ := himports
  obtain ⟨resources, hresources⟩ := hresources
  simp only [Analysis.assemble, himports, hresources, hoptional, hdos, hfile, hdirectories,
    hmachine, htimestamp, Option.map_some, knownOr_unknown]
  exact ⟨_, rfl, ⟨rfl, rfl, rfl, rfl, rfl, rfl⟩, rfl⟩

theorem ofPayload_tells {h : Headers} {slots : List Slot} (hm : Matches h slots) (size : Nat)
    (sections : List Value) (imports : List Import) (resources : List Resource)
    (fileSize : Option Int) :
    ∃ a, Analysis.ofPayload (payloadFields size (headerValue h.dos h.file h.optional slots) sections
        imports resources) fileSize = .ok a ∧ Tells a h ∧ a.sections = sections.map sectionOf := by
  obtain ⟨magic, hmagic⟩ := hm.dos
  have hdos := dosOf_dosValue hmagic
  have hfile := fileOf_fileValue hm.machine hm.timestamp hm.flags
  refine assemble_tells rfl rfl (importsOf_importValues imports)
    (resourcesOf_resourceValues resources) (congrArg some hdos) (congrArg some hfile) ?_ ?_
  · cases ho : h.optional with
    | none => rfl
    | some o =>
      have hread : objectOrNone optionalOf (optionalValue o) = some (.ok o) :=
        congrArg some (optionalOf_optionalValue (hm.optional_canonical o ho))
      show (objectOrNone optionalOf (optionalValue o)).mapM id = _
      rw [hread]
      rfl
  · rw [hm.directories]
    cases h.optional with
    | none => rfl
    | some o => exact directoriesOf_slotValues hm.count

theorem slotsFrom_length_le (b : ByteArray) (base count : Nat) :
    (slotsFrom b base count).length ≤ count := by
  induction count generalizing base with
  | zero => exact Nat.le_refl 0
  | succ count ih =>
    rw [slotsFrom]
    split
    · exact Nat.zero_le _
    · exact Nat.succ_le_succ (ih _)

theorem exists_magic_of_dosHeader {b : ByteArray} {h : DosHeader} (hd : dosHeader b = .ok h) :
    ∃ magic, h.magic = Number.hexPadded 4 magic := by
  unfold dosHeader at hd
  split at hd
  · cases hd
  rename_i dos hdos
  have hc := Image.dosHeader_canonical hdos
  simp only at hd
  split at hd
  · cases hd
  split at hd
  · cases hd
  · cases hd
    exact hc.magic

theorem optionalHeader_eq {b : ByteArray} {base : Nat} {h : OptionalHeader}
    (ho : optionalHeader b base = .ok h) : h = Image.optionalFields b base := by
  simp only [optionalHeader] at ho
  generalize (if (Image.optionalFields b base).magicCode = Image.pe32PlusMagic then 73 else 69) =
    needed at ho
  split at ho
  · cases ho
  · cases ho
    rfl

def View.headers (v : View) : Headers :=
  ⟨v.dos, v.file, some v.optional, namedDirectories v.slots,
    v.dos.headerOffset + 24 + v.file.optionalHeaderSize⟩

theorem view_matches {b : ByteArray} {v : View} (hv : View.ofBytes b = .ok v) :
    Matches v.headers v.slots := by
  simp only [View.ofBytes, throwIf_eq_ok_iff, bind_eq_ok_iff, mapError_eq_ok_iff] at hv
  obtain ⟨dos, hdos, -, -, -, file, hfile, optional, hoptional, sections, -, hv⟩ := hv
  cases hv
  obtain ⟨machine, count, stamp, table, symbols, size, bits, rfl⟩ :=
    Image.exists_ofNumbers_of_fileHeader hfile
  refine ⟨exists_magic_of_dosHeader hdos, rfl, rfl, rfl, ?_, ?_, ?_, rfl⟩
  · rintro o ⟨⟩
    rw [optionalHeader_eq hoptional]
    rfl
  · rintro o ⟨⟩
    rw [optionalHeader_eq hoptional]
    exact ⟨Bytes.little_lt b _ 2, rfl⟩
  · refine Nat.le_trans (slotsFrom_length_le b _ _) ?_
    exact Nat.min_le_right _ _

/-- Every payload of the loader is normalized to an analysis that tells the headers it read. -/
theorem normalize_payload {b : ByteArray} {p : Value} (h : payload b = .ok p)
    (fileSize : Option Int) :
    ∃ v a, View.ofBytes b = .ok v ∧ Report.normalize (.tagged p fileSize) = .ok a ∧
      Tells a v.headers ∧ a.sections.length = v.sections.length := by
  obtain ⟨v, imports, resources, hv, rfl⟩ := exists_of_payload h
  obtain ⟨a, ha, ht, hs⟩ := ofPayload_tells (view_matches hv) b.size
    (v.sections.map (sectionValue v)) imports resources fileSize
  exact ⟨v, a, hv, ha, ht, by rw [hs, List.length_map, List.length_map]⟩

end Loader
end PETriage
