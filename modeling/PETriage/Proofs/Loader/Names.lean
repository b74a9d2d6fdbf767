import PETriage.Proofs.Image.Names
import PETriage.Proofs.Loader.Payload

/-!
# Names of sections in both ways of reading

The direct parser cuts the name of a section at the first zero byte, decodes what is left and
trims it. A loader decodes all of it and takes only zeros off its end. The two names are the same
for a name that has no blanks around it and nothing but zeros behind the first one, and for no
other.
-/
namespace PETriage.Loader

open Text (trim isBlankText)
open Text.Utf8 (decode nul)
open Image (nul_not_mem_front nul_not_mem_sectionName)
open Report

variable {raw : List UInt8}

/-! ## Around the first zero byte -/

/-- What is decoded of a name is what stands before the first zero byte and what comes from it
on. -/
theorem decode_split (raw : List UInt8) :
    decode raw = decode (Bytes.beforeZero raw) ++ decode (raw.dropWhile (· != 0)) := by
  have hraw : Bytes.beforeZero raw ++ raw.dropWhile (· != 0) = raw :=
    List.takeWhile_append_dropWhile
  cases hrest : raw.dropWhile (· != 0) with
  | nil =>
    rw [hrest, List.append_nil] at hraw
    rw [hraw, decode, List.append_nil]
  | cons x rest =>
    have hx : x = 0 := by
      have hhead := List.head_dropWhile_not (· != 0) (l := raw) (by simp [hrest])
      simpa [hrest] using hhead
    subst hx
    rw [hrest] at hraw
    rw [Text.Utf8.decode_zero_cons, ← Text.Utf8.decode_append_zero, hraw]

/-- The part from the first zero byte on begins with its character, if there is one. -/
theorem back_eq (raw : List UInt8) :
    decode (raw.dropWhile (· != 0)) = [] ∨
      ∃ rest, decode (raw.dropWhile (· != 0)) = nul :: rest := by
  cases hrest : raw.dropWhile (· != 0) with
  | nil =>
    left
    rw [decode]
  | cons x rest =>
    have hx : x = 0 := by
      have hhead := List.head_dropWhile_not (· != 0) (l := raw) (by simp [hrest])
      simpa [hrest] using hhead
    right
    exact ⟨decode rest, hx ▸ Text.Utf8.decode_zero_cons rest⟩

/-! ## The two names -/

theorem textOf_of_zeros (h : ∀ c ∈ decode (raw.dropWhile (· != 0)), c = nul) :
    textOf raw = String.ofList (decode (Bytes.beforeZero raw)) := by
  have hzeros : ∀ c ∈ (decode (raw.dropWhile (· != 0))).reverse, (c == Char.ofNat 0) = true := by
    intro c hc
    rw [beq_iff_eq]
    exact h c (List.mem_reverse.1 hc)
  have hfront : ∀ c ∈ (decode (Bytes.beforeZero raw)).reverse, (c == Char.ofNat 0) = false := by
    intro c hc
    rw [beq_eq_false_iff_ne]
    rintro rfl
    exact nul_not_mem_front raw (List.mem_reverse.1 hc)
  simp only [textOf]
  rw [decode_split raw, List.reverse_append, List.dropWhile_append_of_pos hzeros,
    Text.dropWhile_of_none hfront, List.reverse_reverse]

theorem nul_mem_textOf {c : Char} (hc : c ∈ decode (raw.dropWhile (· != 0))) (hne : c ≠ nul) :
    nul ∈ (textOf raw).toList := by
  obtain hnil | ⟨rest, hrest⟩ := back_eq raw
  · rw [hnil] at hc
    cases hc
  have hmem : c ∈ rest := by
    rw [hrest, List.mem_cons] at hc
    exact hc.resolve_left hne
  have hsome : rest.reverse.dropWhile (· == Char.ofNat 0) ≠ [] := by
    rw [ne_eq, List.dropWhile_eq_nil_iff]
    intro hall
    exact hne (eq_of_beq (hall c (List.mem_reverse.2 hmem)))
  simp only [textOf, String.toList_ofList]
  rw [decode_split raw, hrest, List.reverse_append, List.reverse_cons, List.append_assoc,
    List.dropWhile_append, if_neg (by simpa using hsome)]
  simp

/-- What a loader's name of a section is normalized to. -/
theorem name_sectionOf (s : Section) (entropy chiSquare : Float) :
    (sectionOf (sectionFields s entropy chiSquare)).name =
      if isBlankText (textOf s.name) then "Unnamed" else textOf s.name := by
  have hentropy : Field.sectionEntropy.resolve (sectionFields s entropy chiSquare) =
      .ok entropy := rfl
  have hchi : Field.sectionChiSquare.resolve (sectionFields s entropy chiSquare) =
      .ok chiSquare := rfl
  have hname : Field.sectionName.resolve (sectionFields s entropy chiSquare) =
      if isBlankText (textOf s.name) then "Unnamed" else textOf s.name := by
    obtain ⟨o, ho, hdirect, hinfo⟩ : ∃ o : Fields, sectionFields s entropy chiSquare = .object o ∧
        o.get? "name" = some (.str (textOf s.name)) ∧ Field.textAt? "info" ["name"] o = none :=
      ⟨_, rfl, rfl, rfl⟩
    rw [ho]
    cases hb : isBlankText (textOf s.name) with
    | true =>
      have hnone : Field.textAt? "name" [] o = none := by
        simp only [Field.textAt?, Field.follow?, hdirect, hb, ↓reduceIte]
      simp [Field.sectionName, Field.named, Field.Spec.resolve, Field.Spec.find?, hnone, hinfo]
    | false => exact Field.named_resolve _ hdirect hb
  obtain ⟨o, ho⟩ : ∃ o : Fields, sectionFields s entropy chiSquare = .object o := ⟨_, rfl⟩
  rw [ho] at hentropy hchi hname ⊢
  simp only [sectionOf, sectionOf?, hentropy, hchi, hname, Option.getD_some]

/-- A name that both ways of reading take alike: zeros and nothing else from the first zero byte
on, and no blanks around what stands before it, unless that is blank throughout. -/
structure PlainName (raw : List UInt8) : Prop where
  zeros : ∀ c ∈ decode (raw.dropWhile (· != 0)), c = nul
  trimmed : trim (decode (Bytes.beforeZero raw)) = [] ∨
    trim (decode (Bytes.beforeZero raw)) = decode (Bytes.beforeZero raw)

/-- A loader and the direct parser give a section the same name if and only if it is a plain one. -/
theorem section_names_agree_iff (s : Section) (entropy chiSquare : Float) :
    (sectionOf (sectionFields s entropy chiSquare)).name = Image.sectionName s.name ↔
      PlainName s.name := by
  rw [name_sectionOf]
  by_cases hz : ∀ c ∈ decode (s.name.dropWhile (· != 0)), c = nul
  · have hblank : isBlankText (textOf s.name) =
        (trim (decode (Bytes.beforeZero s.name))).isEmpty := by
      rw [textOf_of_zeros hz, Text.isBlankText_ofString, String.toList_ofList]
    rw [hblank, textOf_of_zeros hz, Image.sectionName]
    cases ht : trim (decode (Bytes.beforeZero s.name)) with
    | nil => exact iff_of_true rfl ⟨hz, .inl ht⟩
    | cons c cs =>
      simp only [List.isEmpty_cons, Bool.false_eq_true, ↓reduceIte]
      rw [← ht]
      constructor
      · intro h
        exact ⟨hz, .inr (String.ofList_injective (Text.ofString_inj.1 h)).symm⟩
      · intro h
        rw [h.trimmed.resolve_left (by simp [ht])]
  · refine iff_of_false ?_ fun h => hz h.zeros
    simp only [not_forall] at hz
    obtain ⟨c, hc, hne⟩ := hz
    have hmem := nul_mem_textOf hc hne
    have hb : isBlankText (textOf s.name) = false :=
      Text.isBlankText_eq_false_iff.2 ⟨nul, hmem, by decide⟩
    rw [hb]
    intro h
    exact nul_not_mem_sectionName s.name (Text.ofString_inj.1 h ▸ hmem)

/-- A name with more characters behind its first zero byte. -/
def interruptedName : List UInt8 := [0x2E, 0x74, 0x65, 0x78, 0x74, 0, 0x78, 0]

theorem interruptedName_differs :
    (sectionOf (sectionFields ⟨interruptedName, 4096, 4096, 512, 512, 0⟩ 0.0 0.0)).name =
      String.ofList ['.', 't', 'e', 'x', 't', nul, 'x'] ∧
    Image.sectionName interruptedName = ".text" ∧
    String.ofList ['.', 't', 'e', 'x', 't', nul, 'x'] ≠ ".text" := by
  decide +kernel

end PETriage.Loader
