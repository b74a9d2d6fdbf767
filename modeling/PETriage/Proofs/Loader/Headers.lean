import Mathlib.Data.List.Basic
import PETriage.Loader.Payload
import PETriage.Proofs.Field.Keys
import PETriage.Proofs.Image.Decode
import PETriage.Proofs.Report.Canonical

/-!
# Records read from what a loader shows

A loader shows the numbers of a header under keys with capitals, many of them as a pair of
texts and values. Each record is read from its numbers with the texts that the direct parser
writes beside them.
-/
namespace PETriage.Loader

open Image (DosHeader FileHeader OptionalHeader DataDirectory)
open Report

/-! ## Header records -/

theorem dosOf_dosValue {h : DosHeader} {magic : Nat} (hm : h.magic = Number.hexPadded 4 magic) :
    dosOf (dosValue h) = h := by
  have hmagic : Field.dosMagic.resolve (dosValue h) = magic :=
    Field.resolve_hex [] "e_magic" ["eMagic", "magic"] [] rfl
      (congrArg (some ∘ Value.str ∘ Text.ofString) hm) nofun (List.forall_mem_cons.2 ⟨rfl, List.forall_mem_cons.2 ⟨rfl, nofun⟩⟩)
  have hkeys := Field.numeric_headerKeys
  simp only [Field.headerKeys, List.forall_mem_cons] at hkeys
  simp only [dosOf, hmagic, ← hm, headerNumber, hkeys]
  rfl

theorem machineOf_fileValue (h : FileHeader) :
    machineOf (fileValue h) = (.ofString (Image.machineName h.machineCode), h.machineCode) := by
  have hcode : Field.machineCode.resolve (fileValue h) = some h.machineCode := rfl
  have hlabel : Field.machineLabel.resolve (fileValue h) = none := rfl
  rw [machineOf, hcode, hlabel]
  cases h.machineCode with
  | zero => rfl
  | succ n => rfl

theorem fileOf_fileValue {h : FileHeader} (hm : h.machine = Image.machineName h.machineCode)
    (ht : h.timestamp = Image.timestampText h.timeDateStamp)
    (hf : h.flags = Image.fileFlags.decode h.characteristics) : fileOf (fileValue h) = h := by
  have hkeys := Field.numeric_headerKeys
  simp only [Field.headerKeys, List.forall_mem_cons] at hkeys
  have hstamp : Field.timeDateStamp.resolve (fileValue h) = h.timeDateStamp := rfl
  have hbits : headerNumber "characteristics" (fileValue h) = h.characteristics := rfl
  simp only [fileOf, machineOf_fileValue, hstamp, hbits, ← hm, ← ht, ← hf]
  simp only [headerNumber, hkeys]
  rfl

/-- Without a width there is nothing to fill up. -/
theorem hex_eq_hexPadded (n : Nat) : Number.hex n = Number.hexPadded 0 n := by
  have hn : ¬(n : Int) < 0 := Int.not_lt.2 (Int.natCast_nonneg n)
  rw [Number.hex, Number.hexPadded, if_neg hn, Int.natAbs_natCast, List.leftpad, Nat.zero_sub]
  rfl

theorem optionalMagic_optionalValue (h : OptionalHeader) :
    Field.optionalMagic.resolve (optionalValue h) = h.magicCode := by
  obtain ⟨o, ho, hk, hn⟩ : ∃ o : Fields, optionalValue h = .object o ∧
      o.get? "magic" = some (.str (Number.hex h.magicCode)) ∧
      ∀ k ∈ ["magic_code", "magicCode"], o.get? k = none := by
    refine ⟨_, rfl, rfl, ?_⟩
    cases h.baseOfData with
    | none => exact List.forall_mem_cons.2 ⟨rfl, List.forall_mem_cons.2 ⟨rfl, nofun⟩⟩
    | some n => exact List.forall_mem_cons.2 ⟨rfl, List.forall_mem_cons.2 ⟨rfl, nofun⟩⟩
  rw [hex_eq_hexPadded] at hk
  rw [ho]
  exact Field.resolve_hex ["magic_code", "magicCode"] "magic" [] [] rfl hk hn nofun

theorem subsystemOf_optionalValue (h : OptionalHeader) :
    subsystemOf (optionalValue h) = h.subsystemCode := by
  have hcode : Field.subsystemCode.resolve (optionalValue h) = h.subsystemCode := by
    unfold optionalValue
    cases h.baseOfData with
    | none => rfl
    | some n => rfl
  have hshown : (optionalValue h).field? "subsystem" = some (.nat h.subsystemCode) := rfl
  rw [subsystemOf, hcode, hshown]
  cases h.subsystemCode with
  | zero => rfl
  | succ n => rfl

theorem baseOfData_optionalValue (h : OptionalHeader) :
    Field.baseOfData.resolve (optionalValue h) = h.baseOfData := by
  unfold optionalValue
  cases h.baseOfData with
  | none => rfl
  | some n => rfl

theorem checksum_optionalValue (h : OptionalHeader) :
    Field.checksum.resolve (optionalValue h) = h.checksum := by
  unfold optionalValue
  cases h.baseOfData with
  | none => rfl
  | some n => rfl

theorem optionalOf_optionalValue {h : OptionalHeader} (hc : h.Canonical) :
    optionalOf (optionalValue h) = .ok h := by
  have hkeys := Field.numeric_headerKeys
  simp only [Field.headerKeys, List.forall_mem_cons] at hkeys
  simp only [optionalOf, optionalMagic_optionalValue, baseOfData_optionalValue,
    checksum_optionalValue, subsystemOf_optionalValue, hc.subsystem, ← hc.magic, headerNumber,
    hkeys]
  unfold optionalValue
  refine (congrArg Except.ok ?_ : Except.ok _ = Except.ok h)
  -- The base of data stands behind the other fields or is absent.
  cases hb : h.baseOfData with
  | none =>
    cases h
    cases hb
    rfl
  | some n =>
    cases h
    cases hb
    rfl

/-! ## Data directories -/

/-- The directory in a slot, by the name of its number; a slot of zeros holds none. -/
def namedDirectory? (index : Nat) (s : Slot) : Option DataDirectory :=
  if s.address = 0 ∧ s.size = 0 then none
  else Image.directoryNames[index]?.map fun name : String => ⟨name, s.address, s.size⟩

def namedDirectories (slots : List Slot) : List DataDirectory :=
  slots.zipIdx.filterMap fun (s, index) => namedDirectory? index s

theorem directoryOf?_slotValue {index : Nat} (hi : index < 16) (s : Slot) :
    directoryOf? (slotValue index s) = namedDirectory? index s := by
  have haddress : Field.directoryAddress.resolve (slotValue index s) = s.address := rfl
  have hsize : Field.directorySize.resolve (slotValue index s) = s.size := rfl
  have hnumber : Field.directoryIndex.resolve (slotValue index s) = some index := rfl
  have hname : Image.directoryNames[index]? = some Image.directoryNames[index] :=
    List.getElem?_eq_getElem hi
  have hnamed : directoryNameOf (slotValue index s) = Image.directoryNames[index] := by
    rw [directoryNameOf, hnumber, Option.bind_some, hname]
  obtain ⟨o, ho⟩ : ∃ o : Fields, slotValue index s = .object o := ⟨_, rfl⟩
  rw [ho] at haddress hsize hnamed ⊢
  simp only [directoryOf?, haddress, hsize, hnamed, namedDirectory?, hname, Option.map_some]

theorem directoriesOf_slotValues {slots : List Slot} (hn : slots.length ≤ 16) :
    directoriesOf (.list (slots.mapIdx slotValue)) = namedDirectories slots := by
  rw [directoriesOf, List.mapIdx_eq_zipIdx_map, List.filterMap_map, namedDirectories]
  apply List.filterMap_congr
  intro entry he
  have hi := List.snd_lt_of_mem_zipIdx he
  exact directoryOf?_slotValue (by omega) entry.1

/-- The direct parser names the directories of the slots that it reads. -/
theorem directoriesFrom_eq_named {b : ByteArray} {base index count : Nat}
    {ds : List DataDirectory} (h : Image.directoriesFrom b base index count = .ok ds) :
    ∃ slots : List Slot, slots.length = count ∧
      ds = (slots.zipIdx index).filterMap fun (s, i) => namedDirectory? i s := by
  induction count generalizing index ds with
  | zero =>
    cases h
    exact ⟨[], rfl, rfl⟩
  | succ count ih =>
    simp only [Image.directoriesFrom, bind_eq_ok_iff] at h
    obtain ⟨-, -, h⟩ := h
    obtain ⟨s, hs⟩ : ∃ s : Slot, s = ⟨Bytes.double b (base + index * Image.directorySlotSize),
        Bytes.double b (base + index * Image.directorySlotSize + 4)⟩ := ⟨_, rfl⟩
    split at h
    · rename_i hz
      obtain ⟨slots, hn, rfl⟩ := ih h
      have hnone : namedDirectory? index s = none := by
        rw [hs]
        exact if_pos (by simpa using hz)
      refine ⟨s :: slots, by rw [List.length_cons, hn], ?_⟩
      simp only [List.zipIdx_cons, List.filterMap_cons, hnone]
    · rename_i hz
      simp only [bind_eq_ok_iff] at h
      obtain ⟨name, hname, others, hothers, h⟩ := h
      cases h
      obtain ⟨slots, hn, rfl⟩ := ih hothers
      have hsome : namedDirectory? index s = some ⟨name, s.address, s.size⟩ := by
        unfold Image.directoryName at hname
        split at hname
        · rename_i found hfound
          cases hname
          rw [namedDirectory?, if_neg (by simpa [hs] using hz), hfound, Option.map_some]
        · cases hname
      refine ⟨s :: slots, by rw [List.length_cons, hn], ?_⟩
      simp only [List.zipIdx_cons, List.filterMap_cons, hsome]
      rw [hs]

end PETriage.Loader
