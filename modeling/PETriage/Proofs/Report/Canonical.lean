import PETriage.Proofs.Except
import PETriage.Proofs.Image.Canonical
import PETriage.Report.Normalize

/-!
# Analyses in canonical form

What holds of every analysis that a payload is turned into: its texts are not blank, its
statistics are in their range, and its headers are in canonical form.
-/
namespace PETriage.Report

open Text (isBlankText isBlankText_append)
open Image (DosHeader FileHeader OptionalHeader DataDirectory)
open PETriage.Field (Spec)

structure SectionEntry.Canonical (s : SectionEntry) : Prop where
  name : isBlankText s.name = false
  address : ∃ n, s.address = addressText n
  virtualSize : 0 ≤ s.virtualSize
  rawSize : 0 ≤ s.rawSize
  entropy : ∃ x, s.entropy = entropyField x
  chiSquare : ∃ x, s.chiSquare = chiSquareField x
  characteristics : 0 ≤ s.characteristics

def Import.Canonical (i : Import) : Prop := isBlankText i.library = false

structure Resource.Canonical (r : Resource) : Prop where
  language : isBlankText r.language = false
  entropy : ∃ x, r.entropy = entropyField x
  hash : r.hash = "" ∨ isBlankText r.hash = false

/-- What a header knows stands in the analysis too. -/
structure Analysis.Canonical (a : Analysis) : Prop where
  fileSize : 0 ≤ a.fileSize
  machine : isBlankText a.machine = false
  timestamp : isBlankText a.timestamp = false
  sections : ∀ s ∈ a.sections, s.Canonical
  imports : ∀ is ∈ a.imports, ∀ i ∈ is, i.Canonical
  resources : ∀ rs ∈ a.resources, ∀ r ∈ rs, r.Canonical
  dos : ∀ h ∈ a.dos, h.Canonical
  file : ∀ h ∈ a.file, h.Canonical
  optional : ∀ h ∈ a.optional, h.Canonical
  directories : ∀ d ∈ a.directories, d.Canonical
  knownMachine : ∀ h ∈ a.file, h.machine ≠ Image.unknown → a.machine = h.machine
  knownTimestamp : ∀ h ∈ a.file, h.timestamp ≠ Image.unknown → a.timestamp = h.timestamp
  error : a.error ≠ some ("" : Text)

/-! ## Headers of a payload -/

theorem dosOf_canonical (v : Value) : (dosOf v).Canonical := ⟨_, rfl⟩

theorem machineLabel_resolve {v : Value} {name : Text}
    (h : Field.machineLabel.resolve v = some name) :
    isBlankText name = false ∧ name.whole?.bind Field.naturalOfText? = none := by
  have hall : ∀ find ∈ Field.machineLabel.lookups, ∀ o (r : Option Text), find o = some r →
      ∀ name, r = some name →
        isBlankText name = false ∧ name.whole?.bind Field.naturalOfText? = none := by
    intro find hmem o r hf name hr
    rw [List.mem_singleton.1 hmem] at hf
    obtain ⟨label, hl, rfl⟩ := Option.map_eq_some_iff.1 hf
    cases hr
    exact Field.isBlankText_of_labelAt? hl
  exact Spec.resolve_of_forall Field.machineLabel (P := fun r => ∀ name, r = some name →
    isBlankText name = false ∧ name.whole?.bind Field.naturalOfText? = none) hall nofun v name h

theorem machine_of_label {v : Value} {name : Text} (h : Field.machineLabel.resolve v = some name) :
    ((name.whole?.bind Image.machines.code?).getD 0 ≠ 0 →
      name = Image.machineName ((name.whole?.bind Image.machines.code?).getD 0 : Nat)) ∧
    ((name.whole?.bind Image.machines.code?).getD 0 = 0 → Image.IsCodeless name) := by
  obtain ⟨hb, hn⟩ := machineLabel_resolve h
  refine ⟨fun hc => ?_, fun hc => ⟨hb, hn, hc⟩⟩
  cases hcode : name.whole?.bind Image.machines.code? with
  | none =>
    rw [hcode] at hc
    exact absurd rfl hc
  | some code =>
    obtain ⟨s, hs, hcode⟩ := Option.bind_eq_some_iff.1 hcode
    rw [Text.whole?_eq_some_iff.1 hs, Option.getD_some, Image.machineName_of_code? hcode]

theorem machineOf_canonical (v : Value) :
    ((machineOf v).2 ≠ 0 → (machineOf v).1 = Image.machineName (machineOf v).2) ∧
    ((machineOf v).2 = 0 → Image.IsCodeless (machineOf v).1) := by
  unfold machineOf
  split
  · exact machine_of_label ‹_›
  · exact machine_of_label ‹_›
  · exact ⟨fun h => absurd rfl h, fun _ => Image.isCodeless_unknown⟩
  · refine ⟨fun _ => rfl, fun hz => ?_⟩
    simp only at hz
    rw [hz]
    exact Image.isCodeless_machineName_zero

theorem fileOf_canonical (v : Value) : (fileOf v).Canonical where
  coded := (machineOf_canonical v).1
  named := (machineOf_canonical v).2
  timestamp := rfl
  flags := rfl

theorem liftWritten_eq_ok_iff {α : Type} {x : Except Number.WrittenError α} {a : α} :
    liftWritten x = .ok a ↔ x = .ok a := by
  cases x with
  | ok b => simp [liftWritten]
  | error e => cases e; simp [liftWritten]

theorem optionalOf_canonical {v : Value} {h : OptionalHeader} (ho : optionalOf v = .ok h) :
    h.Canonical := by
  simp only [optionalOf, bind_eq_ok_iff, liftWritten_eq_ok_iff] at ho
  obtain ⟨subsystem, hs, ho⟩ := ho
  cases ho
  exact ⟨rfl, hs⟩

/-! ## Directories, sections, imports and resources -/

theorem isBlankText_directoryNameOf (v : Value) : isBlankText (directoryNameOf v) = false := by
  unfold directoryNameOf
  split
  · rename_i name h
    obtain ⟨i, -, hi⟩ := Option.bind_eq_some_iff.1 h
    exact Image.isBlankText_directoryNames name (List.mem_of_getElem? hi)
  · exact Field.isBlankText_named [("name", [])] rfl v

theorem directoryOf?_canonical {v : Value} {d : DataDirectory} (h : directoryOf? v = some d) :
    d.Canonical := by
  unfold directoryOf? at h
  split at h
  · simp only at h
    split at h
    · cases h
    · cases h
      exact ⟨isBlankText_directoryNameOf _, ‹_›⟩
  · cases h

theorem directoriesOf_canonical (v : Value) : ∀ d ∈ directoriesOf v, d.Canonical := by
  intro d hd
  unfold directoriesOf at hd
  split at hd
  · obtain ⟨item, -, h⟩ := List.mem_filterMap.1 hd
    exact directoryOf?_canonical h
  · cases hd

theorem unprocessed_canonical : SectionEntry.unprocessed.Canonical where
  name := rfl
  address := ⟨0, rfl⟩
  virtualSize := Int.le_refl 0
  rawSize := Int.le_refl 0
  entropy := ⟨0.0, by decide +kernel⟩
  chiSquare := ⟨0.0, by decide +kernel⟩
  characteristics := Int.le_refl 0

theorem sectionOf?_canonical {v : Value} {s : SectionEntry} (h : sectionOf? v = some s) :
    s.Canonical := by
  unfold sectionOf? at h
  split at h
  · split at h
    · cases h
      exact {
        name := Field.isBlankText_named [("name", []), ("info", ["name"])] rfl _
        address := ⟨_, rfl⟩
        virtualSize := Int.natCast_nonneg _
        rawSize := Int.natCast_nonneg _
        entropy := ⟨_, rfl⟩
        chiSquare := ⟨_, rfl⟩
        characteristics := Int.natCast_nonneg _ }
    · cases h
  · cases h

theorem sectionOf_canonical (v : Value) : (sectionOf v).Canonical := by
  unfold sectionOf
  cases h : sectionOf? v with
  | none => exact unprocessed_canonical
  | some s => exact sectionOf?_canonical h

theorem sectionsOf_canonical (v : Value) : ∀ s ∈ sectionsOf v, s.Canonical := by
  intro s hs
  unfold sectionsOf at hs
  split at hs
  · obtain ⟨item, -, rfl⟩ := List.mem_map.1 hs
    exact sectionOf_canonical item
  · cases hs

theorem importOf?_canonical {v : Value} {i : Import} (h : importOf? v = .ok (some i)) :
    i.Canonical := by
  unfold importOf? at h
  split at h
  · obtain ⟨functions, -, h⟩ := bind_eq_ok_iff.1 h
    cases h
    exact Field.isBlankText_named [("module", []), ("dll", []), ("name", [])] rfl _
  · cases h

theorem importsOf_canonical {v : Value} {imports : Option (List Import)}
    (h : importsOf v = .ok imports) : ∀ is ∈ imports, ∀ i ∈ is, i.Canonical := by
  intro is his i hi
  unfold importsOf at h
  split at h
  · obtain ⟨found, hf, h⟩ := bind_eq_ok_iff.1 h
    cases h
    cases his
    obtain ⟨entry, hentry, rfl⟩ := List.mem_filterMap.1 hi
    obtain ⟨item, -, hitem⟩ := exists_of_mem_mapM hf hentry
    exact importOf?_canonical hitem
  · cases h
    cases his

theorem isBlankText_decimal (n : Nat) : isBlankText (Number.decimal n) = false := by
  obtain ⟨ds, hne, hd, hm, -⟩ := Number.toDigits_eq_map (by decide : 1 < 10) n
  rw [Text.isBlankText_eq_false_iff, Number.decimal, if_neg (by omega), Int.natAbs_natCast, hm,
    String.toList_ofList]
  cases ds with
  | nil => exact absurd rfl hne
  | cons d rest =>
    refine ⟨_, List.mem_cons_self, ?_⟩
    exact (Number.isPlain_digitChar d (Nat.lt_trans (hd d List.mem_cons_self) (by decide))).blank

theorem isBlankText_language {v : Value} {text : Text}
    (h : (Field.resourceLanguage.resolve v).text = .ok text) : isBlankText text = false := by
  have hall : ∀ find ∈ Field.resourceLanguage.lookups, ∀ o l, find o = some l →
      ∀ s, l = Field.Language.name s → isBlankText s = false := by
    intro find hmem o l hf s hl
    subst hl
    simp only [Field.resourceLanguage, List.mem_cons, List.not_mem_nil, or_false] at hmem
    rcases hmem with rfl | rfl | rfl
    · obtain ⟨t, ht, hs⟩ := Option.map_eq_some_iff.1 hf
      cases hs
      exact Field.isBlankText_of_textAt? ht
    · obtain ⟨t, ht, hs⟩ := Option.map_eq_some_iff.1 hf
      cases hs
      exact Field.isBlankText_of_textAt? ht
    · obtain ⟨n, -, hs⟩ := Option.map_eq_some_iff.1 hf
      cases hs
  have hname := Spec.resolve_of_forall Field.resourceLanguage
    (P := fun l => ∀ s, l = Field.Language.name s → isBlankText s = false) hall
    (fun s hs => by cases hs; rfl) v
  cases hl : Field.resourceLanguage.resolve v with
  | name s =>
    rw [hl] at h
    cases h
    exact hname _ hl
  | number n =>
    rw [hl, Field.Language.text, Number.decimal?] at h
    split at h
    · cases h
      exact isBlankText_decimal n
    · cases h

theorem resourceHash_resolve (v : Value) : Field.resourceHash.resolve v = "" ∨
    isBlankText (Field.resourceHash.resolve v) = false := by
  refine Spec.resolve_of_forall Field.resourceHash (P := fun s => s = "" ∨ isBlankText s = false)
    ?_ (.inl rfl) v
  intro find hmem o s h
  simp only [Field.resourceHash, Field.named, List.mem_cons, List.not_mem_nil, or_false] at hmem
  rcases hmem with rfl | rfl | rfl <;> exact .inr (Field.isBlankText_of_textAt? h)

theorem resourceOf?_canonical {v : Value} {r : Resource} (h : resourceOf? v = .ok (some r)) :
    r.Canonical := by
  unfold resourceOf? at h
  split at h
  · simp only [bind_eq_ok_iff, liftWritten_eq_ok_iff] at h
    obtain ⟨language, hl, entropy, -, h⟩ := h
    cases h
    exact ⟨isBlankText_language hl, ⟨_, rfl⟩, resourceHash_resolve (.object _)⟩
  · cases h

theorem resourcesOf_canonical {v : Value} {resources : Option (List Resource)}
    (h : resourcesOf v = .ok resources) : ∀ rs ∈ resources, ∀ r ∈ rs, r.Canonical := by
  intro rs hrs r hr
  unfold resourcesOf at h
  split at h
  · obtain ⟨found, hf, h⟩ := bind_eq_ok_iff.1 h
    cases h
    cases hrs
    obtain ⟨entry, hentry, rfl⟩ := List.mem_filterMap.1 hr
    obtain ⟨item, -, hitem⟩ := exists_of_mem_mapM hf hentry
    exact resourceOf?_canonical hitem
  · cases h
    cases hrs

/-! ## Whole payloads -/

theorem exists_of_objectOrNone {α : Type} {f : Value → α} {v : Value} {a : α}
    (h : objectOrNone f v = some a) : ∃ o, a = f (.object o) := by
  cases v with
  | object o =>
    cases h
    exact ⟨o, rfl⟩
  | _ => cases h

theorem isBlankText_knownOr {header : Option Text} {other : Text}
    (hh : ∀ text ∈ header, isBlankText text = false) (ho : isBlankText other = false) :
    isBlankText (knownOr header other) = false := by
  unfold knownOr
  split
  · split
    · exact ho
    · exact hh _ rfl
  · exact ho

theorem knownOr_of_known {text : Text} (other : Text) (h : text ≠ Image.unknown) :
    knownOr (some text) other = text := if_neg h

theorem errorOf_ne (o : Fields) : errorOf o ≠ some ("" : Text) := by
  unfold errorOf
  split
  · split
    · nofun
    · exact fun h => absurd (Option.some.inj h) ‹_›
  · nofun

theorem assemble_canonical {o : Fields} {parts : Parts} {fileSize : Option Int} {a : Analysis}
    (h : Analysis.assemble o parts fileSize = .ok a) (hs : ∀ n ∈ fileSize, 0 ≤ n) :
    a.Canonical := by
  simp only [Analysis.assemble, bind_eq_ok_iff] at h
  obtain ⟨imports, hi, resources, hr, optional, ho, h⟩ := h
  cases h
  have hfile : ∀ h ∈ objectOrNone fileOf parts.file, h.Canonical := by
    intro h hf
    obtain ⟨o, rfl⟩ := exists_of_objectOrNone hf
    exact fileOf_canonical _
  exact {
    fileSize := by
      cases fileSize with
      | none => exact Int.natCast_nonneg _
      | some n => exact hs n rfl
    machine := by
      refine isBlankText_knownOr (fun text ht => ?_)
        (Field.isBlankText_named [("machine_type", []), ("machineType", [])] rfl _)
      obtain ⟨h, hf, rfl⟩ := Option.map_eq_some_iff.1 ht
      exact (hfile h hf).isBlankText_machine
    timestamp := by
      refine isBlankText_knownOr (fun text ht => ?_)
        (Field.isBlankText_named [("timestamp", [])] rfl _)
      obtain ⟨h, hf, rfl⟩ := Option.map_eq_some_iff.1 ht
      rw [(hfile h hf).timestamp]
      exact Image.isBlankText_timestampText _
    sections := sectionsOf_canonical _
    imports := importsOf_canonical hi
    resources := resourcesOf_canonical hr
    dos := by
      intro h hd
      obtain ⟨o, rfl⟩ := exists_of_objectOrNone hd
      exact dosOf_canonical _
    file := hfile
    optional := by
      intro h hmem
      obtain ⟨o, hoo⟩ := exists_of_objectOrNone (optionMapM_eq_ok_some (ho.trans (congrArg _ hmem)))
      exact optionalOf_canonical hoo.symm
    directories := directoriesOf_canonical _
    knownMachine := by
      intro h hf hk
      simp only [Option.mem_def] at hf
      simp only [hf, Option.map_some]
      exact knownOr_of_known _ hk
    knownTimestamp := by
      intro h hf hk
      simp only [Option.mem_def] at hf
      simp only [hf, Option.map_some]
      exact knownOr_of_known _ fun he => hk (Text.ofString_inj.1 he)
    error := errorOf_ne o }

end PETriage.Report
