import PETriage.Proofs.Except
import PETriage.Proofs.Image.Canonical

/-!
# Decoded headers are in canonical form

The numbers of a header are as wide as their bytes, so that a subsystem can always be shown.
-/
namespace PETriage

namespace Bytes

theorem byteAt_lt (b : ByteArray) (i : Nat) : byteAt b i < 256 := by
  unfold byteAt
  split
  · exact UInt8.toNat_lt _
  · decide

theorem little_lt (b : ByteArray) (offset width : Nat) :
    little b offset width < Nat.pow 256 width := by
  induction width generalizing offset with
  | zero => exact Nat.one_pos
  | succ width ih =>
    have hb := byteAt_lt b offset
    have hr := ih (offset + 1)
    rw [little]
    show _ < Nat.pow 256 width * 256
    omega

end Bytes

namespace Image

open Text (isBlankText)

theorem dosHeader_canonical {b : ByteArray} {h : DosHeader} (hd : dosHeader b = .ok h) :
    h.Canonical := by
  simp only [dosHeader, throwIf_eq_ok_iff, bind_eq_ok_iff] at hd
  obtain ⟨-, -, -, -, -, hd⟩ := hd
  cases hd
  exact ⟨_, rfl⟩

theorem exists_ofNumbers_of_fileHeader {b : ByteArray} {base : Nat} {h : FileHeader}
    (hf : fileHeader b base = .ok h) : ∃ machine count stamp table symbols size bits,
      h = .ofNumbers machine count stamp table symbols size bits := by
  simp only [fileHeader, throwIf_eq_ok_iff, bind_eq_ok_iff] at hf
  obtain ⟨-, -, -, hf⟩ := hf
  cases hf
  exact ⟨_, _, _, _, _, _, _, rfl⟩

theorem fileHeader_canonical {b : ByteArray} {base : Nat} {h : FileHeader}
    (hf : fileHeader b base = .ok h) : h.Canonical := by
  obtain ⟨machine, count, stamp, table, symbols, size, bits, rfl⟩ :=
    exists_ofNumbers_of_fileHeader hf
  exact fileHeader_ofNumbers_canonical ..

/-- A word has few decimal digits. -/
theorem subsystemName_of_word {code : Nat} (h : code < 65536) :
    subsystemName code = .ok (subsystemNameOfWord code) := by
  have hshort : Number.decimalLength code ≤ Number.decimalDigitLimit := by
    have h5 : (Nat.toDigits 10 code).length ≤ 5 :=
      (Nat.length_toDigits_le_iff (by decide) (by decide)).2 (by omega)
    exact Nat.le_trans h5 (by decide)
  unfold subsystemName subsystemNameOfWord
  cases subsystems.name? code with
  | none =>
    rw [Number.decimal?, if_pos hshort]
    rfl
  | some name => rfl

theorem optionalFields_canonical (b : ByteArray) (base : Nat) :
    (optionalFields b base).Canonical where
  magic := rfl
  subsystem := subsystemName_of_word (Bytes.little_lt b (base + 68) 2)

theorem optionalHeader_eq {b : ByteArray} {base declared : Nat} {optional : Option OptionalHeader}
    (ho : optionalHeader b base declared = .ok optional) :
    optional = none ∨ optional = some (optionalFields b base) := by
  unfold optionalHeader at ho
  split at ho
  · cases ho
    exact .inl rfl
  simp only [bind_eq_ok_iff] at ho
  obtain ⟨-, -, ho⟩ := ho
  split at ho
  · cases ho
    exact .inl rfl
  simp only [bind_eq_ok_iff] at ho
  obtain ⟨-, -, ho⟩ := ho
  cases ho
  exact .inr rfl

theorem optionalHeader_canonical {b : ByteArray} {base declared : Nat}
    {optional : Option OptionalHeader} (ho : optionalHeader b base declared = .ok optional) :
    ∀ h ∈ optional, h.Canonical := by
  rcases optionalHeader_eq ho with rfl | rfl
  · nofun
  · rintro h ⟨⟩
    exact optionalFields_canonical b base

/-- Each slot adds a directory that is used, under a name of the table, or none. -/
theorem directoriesFrom_canonical {b : ByteArray} {base index count : Nat}
    {ds : List DataDirectory} (h : directoriesFrom b base index count = .ok ds) :
    ∀ d ∈ ds, d.Canonical := by
  induction count generalizing index ds with
  | zero =>
    cases h
    nofun
  | succ count ih =>
    simp only [directoriesFrom, bind_eq_ok_iff] at h
    obtain ⟨-, -, h⟩ := h
    split at h
    · exact ih h
    · rename_i hused
      simp only [bind_eq_ok_iff] at h
      obtain ⟨name, hname, others, hothers, h⟩ := h
      cases h
      intro d hd
      rcases List.mem_cons.1 hd with rfl | hd
      · unfold directoryName at hname
        split at hname
        · cases hname
          exact ⟨isBlankText_directoryNames name (List.mem_of_getElem? ‹_›), by simpa using hused⟩
        · cases hname
      · exact ih hothers d hd

structure Headers.Canonical (h : Headers) : Prop where
  dos : h.dos.Canonical
  file : h.file.Canonical
  optional : ∀ o ∈ h.optional, o.Canonical
  directories : ∀ d ∈ h.directories, d.Canonical

theorem decode_canonical {b : ByteArray} {h : Headers} (hd : Headers.decode b = .ok h) :
    h.Canonical := by
  simp only [Headers.decode, throwIf_eq_ok_iff, bind_eq_ok_iff] at hd
  obtain ⟨-, dos, hdos, -, -, file, hfile, optional, hoptional, directories, hdirectories, hd⟩ := hd
  cases hd
  refine ⟨dosHeader_canonical hdos, fileHeader_canonical hfile,
    optionalHeader_canonical hoptional, ?_⟩
  cases optional with
  | none =>
    cases hdirectories
    nofun
  | some o => exact directoriesFrom_canonical hdirectories

/-- A section's name is trimmed, and one that is nothing but blanks is replaced. -/
theorem isBlankText_sectionName (raw : List UInt8) : isBlankText (sectionName raw) = false := by
  simp only [sectionName]
  split
  · rfl
  · rename_i h
    exact Text.isBlankText_trim fun he => h (by rw [he]; rfl)

theorem isBlankText_sectionRow {b : ByteArray} {base : Nat} {h : SectionHeader}
    (hr : sectionRow b base = .header h) : isBlankText h.name = false := by
  unfold sectionRow at hr
  split at hr
  · cases hr
  · cases hr
    exact isBlankText_sectionName _

end Image
end PETriage
