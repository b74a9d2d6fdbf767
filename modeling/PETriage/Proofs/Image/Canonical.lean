import PETriage.Image.Headers
import PETriage.Proofs.Field.Lookup

/-!
# Headers in canonical form

What a header names agrees with its codes, and no name is blank.
-/
namespace PETriage

open Text (isBlankText isBlankText_append isBlankText_of_first)

namespace Image

structure DosHeader.Canonical (h : DosHeader) : Prop where
  magic : ∃ n, h.magic = Number.hexPadded 4 n

/-- The name of a machine that has no code of its own. -/
structure IsCodeless (machine : Text) : Prop where
  blank : isBlankText machine = false
  number : machine.whole?.bind Field.naturalOfText? = none
  code : (machine.whole?.bind machines.code?).getD 0 = 0

/-- A machine without a code is known by its name alone. -/
structure FileHeader.Canonical (h : FileHeader) : Prop where
  coded : h.machineCode ≠ 0 → h.machine = machineName h.machineCode
  named : h.machineCode = 0 → IsCodeless h.machine
  timestamp : h.timestamp = timestampText h.timeDateStamp
  flags : h.flags = fileFlags.decode h.characteristics

structure OptionalHeader.Canonical (h : OptionalHeader) : Prop where
  magic : h.magic = magicName h.magicCode
  subsystem : subsystemName h.subsystemCode = .ok h.subsystem

structure DataDirectory.Canonical (d : DataDirectory) : Prop where
  name : isBlankText d.name = false
  used : ¬(d.address = 0 ∧ d.size = 0)

/-! ## Names of codes -/

theorem isBlankText_unknownCode (text : String) : isBlankText (unknownCode text) = false := by
  rw [unknownCode, String.append_assoc, String.append_assoc]
  exact isBlankText_append _ rfl

theorem isBlankText_machines : ∀ entry ∈ machines, isBlankText entry.2 = false := by
  simp only [machines, List.forall_mem_cons]
  and_intros
  all_goals first | exact isBlankText_of_first _ rfl | nofun

theorem isBlankText_directoryNames : ∀ name ∈ directoryNames, isBlankText name = false := by
  simp only [directoryNames, List.forall_mem_cons]
  and_intros
  all_goals first | exact isBlankText_of_first _ rfl | nofun

theorem name?_machines : ∀ entry ∈ machines, machines.name? entry.1 = some entry.2 := by
  decide +kernel

theorem isBlankText_machineName (code : Int) : isBlankText (machineName code) = false := by
  rw [machineName]
  cases hn : machines.name? code with
  | none => exact isBlankText_unknownCode _
  | some name =>
    obtain ⟨entry, hf, rfl⟩ := Option.map_eq_some_iff.1 hn
    exact isBlankText_machines entry (List.mem_of_find?_eq_some hf)

/-- The code of a machine's name has that name. -/
theorem machineName_of_code? {name : String} {code : Nat} (h : machines.code? name = some code) :
    machineName code = name := by
  obtain ⟨⟨c, n⟩, hf, rfl⟩ := Option.map_eq_some_iff.1 h
  have hn : n = name := by simpa using List.find?_some hf
  rw [machineName, name?_machines _ (List.mem_of_find?_eq_some hf), Option.getD_some, hn]

theorem isBlankText_timestampText (t : Int) : isBlankText (timestampText t) = false := by
  unfold timestampText
  split
  · rfl
  · rw [Text.isBlankText_eq_false_iff, DateTime.text, String.toList_ofList]
    exact ⟨'-', by simp, rfl⟩

theorem FileHeader.Canonical.isBlankText_machine {h : FileHeader} (hc : h.Canonical) :
    isBlankText h.machine = false := by
  by_cases hz : h.machineCode = 0
  · exact (hc.named hz).blank
  · rw [hc.coded hz]
    exact isBlankText_machineName _

theorem isCodeless_machineName_zero : IsCodeless (machineName 0) :=
  ⟨by decide, by decide, by decide⟩

theorem isCodeless_unknown : IsCodeless unknown := ⟨by decide, by decide, by decide⟩

theorem fileHeader_ofNumbers_canonical (machine count stamp table symbols size bits : Nat) :
    (FileHeader.ofNumbers machine count stamp table symbols size bits).Canonical where
  coded := fun _ => rfl
  named := by
    intro h
    have hz : machine = 0 := h
    subst hz
    exact isCodeless_machineName_zero
  timestamp := rfl
  flags := rfl

end Image

end PETriage
