import PETriage.Proofs.Image.Decode
import PETriage.Proofs.Text.Written

/-!
# Names of sections

A name has eight bytes in the section table, and cutting, decoding and trimming make no more
characters of them. A text that may be a name is read as it was written, with or without other
bytes behind a zero, and only such a text is ever read.
-/
namespace PETriage

namespace Bytes

variable {xs : List UInt8}

theorem zero_not_mem_beforeZero (raw : List UInt8) : 0 ∉ beforeZero raw := by
  intro h
  have hne := List.mem_takeWhile_imp h
  simp at hne

theorem beforeZero_append (h : 0 ∉ xs) (ys : List UInt8) :
    beforeZero (xs ++ ys) = xs ++ beforeZero ys := by
  apply List.takeWhile_append_of_pos
  intro x hx
  rw [bne_iff_ne]
  rintro rfl
  exact h hx

end Bytes

namespace Text

theorem length_trim_le (cs : List Char) : (trim cs).length ≤ cs.length := by
  have hdrop : ∀ xs : List Char, (xs.dropWhile isBlank).length ≤ xs.length :=
    fun xs => (List.dropWhile_sublist isBlank).length_le
  rw [trim, List.length_reverse]
  have hfront := hdrop cs
  rw [← List.length_reverse] at hfront
  exact Nat.le_trans (hdrop _) hfront

/-- No byte gives more than one character. -/
theorem Utf8.length_decode_le (xs : List UInt8) : (decode xs).length ≤ xs.length := by
  fun_induction decode xs
  all_goals
    simp only [List.length_cons, List.length_nil] at *
    omega

end Text

namespace Image

open Text (Trimmed isBlankText)
open Text.Utf8 (decode encode nul)

variable {cs : List Char} {after : List UInt8}

theorem length_sectionName_le {raw : List UInt8} (h : raw.length ≤ 8) :
    (sectionName raw).length ≤ 8 := by
  have hcut : (Bytes.beforeZero raw).length ≤ raw.length :=
    (List.takeWhile_sublist (· != 0)).length_le
  have hdecoded := Text.Utf8.length_decode_le (Bytes.beforeZero raw)
  have htrimmed := Text.length_trim_le (Text.Utf8.decode (Bytes.beforeZero raw))
  simp only [sectionName]
  split
  · decide
  · rw [String.length_ofList]
    omega

theorem length_name_le {b : ByteArray} {base : Nat} {header : SectionHeader}
    (h : sectionRow b base = .header header) : header.name.length ≤ 8 := by
  unfold sectionRow at h
  split at h
  · cases h
  · cases h
    have hsize : (b.extract base (base + 8)).size ≤ 8 := by
      rw [ByteArray.size_extract]
      omega
    exact length_sectionName_le hsize

/-! ## Names written and read back -/

/-- A text that may be the name of a section: there is something in it, no zero character, and no
blank at its ends. -/
structure Proper (cs : List Char) : Prop where
  ne_nil : cs ≠ []
  whole : nul ∉ cs
  trimmed : Trimmed cs

theorem nul_not_mem_front (raw : List UInt8) : nul ∉ decode (Bytes.beforeZero raw) :=
  Text.Utf8.nul_not_mem_decode (Bytes.zero_not_mem_beforeZero raw)

theorem proper_unnamed : Proper "Unnamed".toList where
  ne_nil := nofun
  whole := by decide
  trimmed := {
    front := by
      intro c hc
      obtain rfl : 'U' = c := Option.some.inj hc
      rfl
    back := by
      intro c hc
      obtain rfl : 'd' = c := Option.some.inj hc
      rfl }

theorem proper_sectionName (raw : List UInt8) : Proper (sectionName raw).toList := by
  simp only [sectionName]
  split
  · exact proper_unnamed
  · rename_i hne
    rw [String.toList_ofList]
    refine ⟨fun hnil => hne (List.isEmpty_iff.2 hnil), fun hnul => ?_, Text.trimmed_trim _⟩
    exact nul_not_mem_front raw (Text.trim_subset _ hnul)

theorem nul_not_mem_sectionName (raw : List UInt8) : nul ∉ (sectionName raw).toList :=
  (proper_sectionName raw).whole

/-- The bytes of a proper text are read as that text when nothing but a zero byte, and whatever is
behind it, comes after them. -/
theorem sectionName_encode_append (h : Proper cs) (hafter : Bytes.beforeZero after = []) :
    sectionName (encode cs ++ after) = String.ofList cs := by
  have hcut : Bytes.beforeZero (encode cs ++ after) = encode cs := by
    rw [Bytes.beforeZero_append (Text.Utf8.zero_not_mem_encode h.whole), hafter, List.append_nil]
  have hne : ¬cs.isEmpty = true := fun hnil => h.ne_nil (List.isEmpty_iff.1 hnil)
  simp only [sectionName, hcut, Text.Utf8.decode_encode, Text.trim_of_trimmed h.trimmed,
    if_neg hne]

theorem sectionName_encode {s : String} (h : Proper s.toList) :
    sectionName (encode s.toList) = s := by
  have hread := sectionName_encode_append h (show Bytes.beforeZero [] = [] from rfl)
  rwa [List.append_nil, String.ofList_toList] at hread

theorem sectionName_encode_zero {s : String} (h : Proper s.toList) (after : List UInt8) :
    sectionName (encode s.toList ++ 0 :: after) = s := by
  rw [sectionName_encode_append h rfl, String.ofList_toList]

/-- The texts that are read as they were written, alone or with a zero byte and anything else
behind them, are those that may be names. Every name that is read is one of them, and it is not
blank; it is read again from its own bytes. -/
theorem sectionName_inverts_encode :
    (∀ s : String, Proper s.toList ↔ sectionName (encode s.toList) = s) ∧
    (∀ (s : String) (after : List UInt8),
      Proper s.toList ↔ sectionName (encode s.toList ++ 0 :: after) = s) ∧
    ∀ raw : List UInt8, Proper (sectionName raw).toList ∧ isBlankText (sectionName raw) = false ∧
      sectionName (encode (sectionName raw).toList) = sectionName raw := by
  have hproper : ∀ {s : String} {xs : List UInt8}, sectionName xs = s → Proper s.toList := by
    rintro _ xs rfl
    exact proper_sectionName xs
  exact ⟨fun s => ⟨sectionName_encode, hproper⟩,
    fun s after => ⟨fun h => sectionName_encode_zero h after, hproper⟩,
    fun raw => ⟨proper_sectionName raw, isBlankText_sectionName raw,
      sectionName_encode (proper_sectionName raw)⟩⟩

/-- A sequence that breaks off and a stray byte are passed over, and the character between them is
kept. -/
example : sectionName [0x20, 0xE2, 0x82, 0xC3, 0xA9, 0xFF, 0, 0x61] = "é" := by decide +kernel

end Image
end PETriage
