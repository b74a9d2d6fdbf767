import PETriage.Proofs.Field.Keys
import PETriage.Proofs.Report.Normalized
import PETriage.Proofs.Report.Statistics

/-!
# Records that are read back

A record in canonical form is printed with keys that lead every lookup to the value it was
printed from. Statistics are read back as texts of fixed precision, and the type of a resource
is read as one that is not in plain words yet.
-/
namespace PETriage

open Text (isBlankText)

/-- The value that the text is read as is printed as the same text. -/
def Number.Rereads (places : Nat) (text : String) : Prop :=
  (Number.readReal? text.toList).map (Number.fixed places) = some text

instance (places : Nat) (text : String) : Decidable (Number.Rereads places text) :=
  inferInstanceAs (Decidable (_ = _))

namespace Report

open Image (DosHeader FileHeader OptionalHeader DataDirectory)

/-! ## Headers -/

theorem dosOf_dosValue {h : DosHeader} (hc : h.Canonical) : dosOf (dosValue h) = h := by
  obtain ⟨n, hn⟩ := hc.magic
  have hm : Field.dosMagic.resolve (dosValue h) = n :=
    Field.resolve_hex [] "e_magic" ["eMagic", "magic"] [] rfl
      (congrArg (some ∘ Value.str ∘ Text.ofString) hn) nofun (List.forall_mem_cons.2 ⟨rfl, List.forall_mem_cons.2 ⟨rfl, nofun⟩⟩)
  have hkeys := Field.numeric_headerKeys
  simp only [Field.headerKeys, List.forall_mem_cons] at hkeys
  simp only [dosOf, hm, ← hn, headerNumber, hkeys]
  rfl

theorem machineOf_fileValue {h : FileHeader} (hc : h.Canonical) :
    machineOf (fileValue h) = (h.machine, h.machineCode) := by
  have hcode : Field.machineCode.resolve (fileValue h) = some h.machineCode := rfl
  unfold machineOf
  rw [hcode]
  cases hz : h.machineCode with
  | zero =>
    obtain ⟨hb, hn, hm⟩ := hc.named hz
    have hlabel : Field.machineLabel.resolve (fileValue h) = some h.machine := by
      obtain ⟨o, ho, hk⟩ : ∃ o : Fields, fileValue h = .object o ∧
          o.get? "machine" = some (.str h.machine) := ⟨_, rfl, rfl⟩
      simp only [ho, Field.machineLabel, Field.Spec.resolve, Field.Spec.find?, List.findSome?_cons,
        Field.labelAt?_of_get? hk hb hn, Option.map_some, Option.getD_some]
    rw [hlabel]
    simp only [hm]
  | succ k =>
    have hname : h.machine = Image.machineName (k + 1 : Nat) := hz ▸ hc.coded (by omega)
    rw [hname]
    cases Field.machineLabel.resolve (fileValue h) <;> rfl

theorem fileOf_fileValue {h : FileHeader} (hc : h.Canonical) : fileOf (fileValue h) = h := by
  have hkeys := Field.numeric_headerKeys
  simp only [Field.headerKeys, List.forall_mem_cons] at hkeys
  have hstamp : Field.timeDateStamp.resolve (fileValue h) = h.timeDateStamp := rfl
  have hbits : headerNumber "characteristics" (fileValue h) = h.characteristics := rfl
  simp only [fileOf, machineOf_fileValue hc, hstamp, hbits, ← hc.timestamp, ← hc.flags]
  simp only [headerNumber, hkeys]
  rfl

theorem subsystemOf_optionalValue {h : OptionalHeader} (hc : h.Canonical) :
    subsystemOf (optionalValue h) = h.subsystemCode := by
  have hcode : Field.subsystemCode.resolve (optionalValue h) = h.subsystemCode := rfl
  have hname : (optionalValue h).field? "subsystem" = some (.str h.subsystem) := rfl
  unfold subsystemOf
  rw [hcode, hname]
  cases hz : h.subsystemCode with
  | zero =>
    have hs := hc.subsystem
    rw [hz] at hs
    rw [← Except.ok.inj hs]
    rfl
  | succ k => rfl

theorem optionalOf_optionalValue {h : OptionalHeader} (hc : h.Canonical) :
    optionalOf (optionalValue h) = .ok h := by
  have hmagic : Field.optionalMagic.resolve (optionalValue h) = h.magicCode := rfl
  have hdata : Field.baseOfData.resolve (optionalValue h) = h.baseOfData := by
    unfold optionalValue
    cases h.baseOfData with
    | none => rfl
    | some n => rfl
  have hkeys := Field.numeric_headerKeys
  simp only [Field.headerKeys, List.forall_mem_cons] at hkeys
  simp only [optionalOf, hmagic, hdata, subsystemOf_optionalValue hc, hc.subsystem, ← hc.magic,
    headerNumber, hkeys]
  rfl

theorem entropyField_of_rereads {text : String} (hc : ∃ x, text = entropyField x)
    (h : Number.Rereads 6 text) :
    ∃ x, Number.readReal? text.toList = some x ∧ entropyField x = text := by
  obtain ⟨x, rfl⟩ := hc
  obtain ⟨y, hy, hf⟩ := Option.map_eq_some_iff.1 h
  exact ⟨y, hy, entropyField_of_fixed hf⟩

/-- The fields that a section is printed with, whole or reduced. -/
structure SectionEntry.Printed (s : SectionEntry) (o : Fields) : Prop where
  name : o.get? "name" = some (.str s.name)
  address : o.get? "virtual_address" = some (.str s.address)
  otherAddress : o.get? "virtualAddress" = none
  virtualSize : o.get? "virtual_size" = some (.int s.virtualSize)
  rawSize : o.get? "raw_size" = some (.int s.rawSize)
  entropy : o.get? "entropy" = some (.str s.entropy)

theorem sectionOf_of_printed {s : SectionEntry} (hc : s.Canonical)
    (he : Number.Rereads 6 s.entropy) {o : Fields} (hp : s.Printed o) {chi : Float}
    (hchi : Field.sectionChiSquare.resolve (.object o) = .ok chi) :
    sectionOf (.object o) = { s with
      chiSquare := chiSquareField chi
      characteristics := (Field.sectionCharacteristics.resolve (.object o) : Nat) } := by
  obtain ⟨n, hn⟩ := hc.address
  obtain ⟨x, hxr, hxf⟩ := entropyField_of_rereads hc.entropy he
  have hname : Field.sectionName.resolve (.object o) = s.name :=
    Field.named_resolve _ hp.name hc.name
  have haddress : Field.sectionAddress.resolve (.object o) = n :=
    Field.resolve_hex [] "virtual_address" ["virtualAddress"] _ rfl
      (hp.address.trans (congrArg (some ∘ Value.str ∘ Text.ofString) hn)) nofun
      (List.forall_mem_cons.2 ⟨hp.otherAddress, nofun⟩)
  have hvsize : (Field.sectionVirtualSize.resolve (.object o) : Int) = s.virtualSize :=
    Field.resolve_int _ rfl hp.virtualSize hc.virtualSize
  have hrsize : (Field.sectionRawSize.resolve (.object o) : Int) = s.rawSize :=
    Field.resolve_int _ rfl hp.rawSize hc.rawSize
  have hentropy : Field.sectionEntropy.resolve (.object o) = .ok x :=
    Field.real_resolve _ hp.entropy hxr
  simp only [sectionOf, sectionOf?, hname, haddress, hvsize, hrsize, hentropy, hchi, hxf, ← hn,
    Option.getD_some]

theorem functionsOf_texts (names : List Text) : functionsOf (some (texts names)) = .ok names :=
  (mapM_map_eq_ok (f := functionName) (g := Value.str) (h := id) fun _ _ => rfl).trans
    (congrArg Except.ok (List.map_id names))

theorem importOf?_toValue {i : Import} (hc : i.Canonical) : importOf? i.toValue = .ok (some i) := by
  have hl : Field.importLibrary.resolve i.toValue = i.library := Field.named_resolve _ rfl hc
  obtain ⟨o, ho, hf⟩ : ∃ o : Fields, i.toValue = .object o ∧
      o.get? "functions" = some (texts i.functions) := ⟨_, rfl, rfl⟩
  rw [ho] at hl ⊢
  simp only [importOf?, hf, functionsOf_texts, hl]
  rfl

theorem importsOf_toValue {is : List Import} (hc : ∀ i ∈ is, i.Canonical) :
    importsOf (.list (is.map Import.toValue)) = .ok (some is) := by
  have hm := mapM_map_eq_ok (h := some) fun i hi => importOf?_toValue (hc i hi)
  simp only [importsOf, hm]
  show Except.ok (some ((is.map some).filterMap id)) = _
  rw [List.filterMap_map]
  simp

/-- A type is read once more as one that may not be in plain words; a blank one is unknown. -/
def rereadType (type : Text) : Text :=
  resourceTypeText (if isBlankText type then Image.unknown else type)

def Resource.reread (r : Resource) : Resource := { r with type := rereadType r.type }

theorem resourceOf?_toValue {r : Resource} (hc : r.Canonical) (he : Number.Rereads 6 r.entropy) :
    resourceOf? r.toValue = .ok (some r.reread) := by
  obtain ⟨x, hx, hf⟩ := entropyField_of_rereads hc.entropy he
  have htype : resourceTypeText (Field.resourceType.resolve r.toValue) = rereadType r.type := by
    rw [rereadType]
    congr 1
    split
    · exact Field.named_resolve_blank rfl ‹_›
    · exact Field.named_resolve _ rfl (Bool.eq_false_iff.2 ‹_›)
  have hlanguage : Field.resourceLanguage.resolve r.toValue = .name r.language := by
    obtain ⟨o, ho, hk⟩ : ∃ o : Fields, r.toValue = .object o ∧
        o.get? "language" = some (.str r.language) := ⟨_, rfl, rfl⟩
    simp only [ho, Field.resourceLanguage, Field.Spec.resolve, Field.Spec.find?,
      List.findSome?_cons, Field.textAt?_of_get? hk hc.language, Option.map_some, Option.getD_some]
  have hsize : Field.resourceSize.resolve r.toValue = r.size := rfl
  have hentropy : Field.resourceEntropy.resolve r.toValue = .ok x := Field.real_resolve _ rfl hx
  have hhash : Field.resourceHash.resolve r.toValue = r.hash := by
    rcases hc.hash with hh | hh
    · rw [Resource.toValue, hh]
      rfl
    · exact Field.named_resolve _ rfl hh
  obtain ⟨o, ho⟩ : ∃ o : Fields, r.toValue = .object o := ⟨_, rfl⟩
  rw [ho] at htype hlanguage hsize hentropy hhash ⊢
  simp only [resourceOf?, htype, hlanguage, hsize, hentropy, hhash]
  show Except.ok (some (Resource.mk _ _ _ (entropyField x) _)) = _
  rw [hf]
  rfl

theorem resourcesOf_toValue {rs : List Resource} (hc : ∀ r ∈ rs, r.Canonical)
    (he : ∀ r ∈ rs, Number.Rereads 6 r.entropy) :
    resourcesOf (.list (rs.map Resource.toValue)) = .ok (some (rs.map Resource.reread)) := by
  have hm := mapM_map_eq_ok (h := some ∘ Resource.reread)
    fun r hr => resourceOf?_toValue (hc r hr) (he r hr)
  simp only [resourcesOf, hm]
  show Except.ok (some ((rs.map (some ∘ Resource.reread)).filterMap id)) = _
  rw [List.filterMap_map]
  simp

end Report
end PETriage
