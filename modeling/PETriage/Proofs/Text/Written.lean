import PETriage.Proofs.Text.Utf8

/-!
# Characters written and read back

A character is written as one to four bytes, a sequence that decoding takes as a whole and turns
into the same character, whatever bytes follow. A text is therefore read back as it was written,
and there is a zero byte in what was written only for a zero character.
-/
namespace PETriage.Text.Utf8

variable {n : Nat} {cs : List Char} {xs : List UInt8}

/-! ## Sequences -/

/-- The bytes that decoding takes for one character, and the number of that character. -/
inductive Sequence : List UInt8 → Nat → Prop
  | one {a : UInt8} (ha : a < 0x80) : Sequence [a] a.toNat
  | two {a b : UInt8} (ha : 0xC2 ≤ a ∧ a ≤ 0xDF) (hb : isTail b = true) :
      Sequence [a, b] (a.toNat % 32 * 64 + tailBits b)
  | three {a b c : UInt8} (ha : 0xE0 ≤ a ∧ a ≤ 0xEF) (hb : isSecondOfThree a b = true)
      (hc : isTail c = true) :
      Sequence [a, b, c] (a.toNat % 16 * 4096 + tailBits b * 64 + tailBits c)
  | four {a b c d : UInt8} (ha : 0xF0 ≤ a ∧ a ≤ 0xF4) (hb : isSecondOfFour a b = true)
      (hc : isTail c = true) (hd : isTail d = true) :
      Sequence [a, b, c, d]
        (a.toNat % 8 * 262144 + tailBits b * 4096 + tailBits c * 64 + tailBits d)

theorem Sequence.decode_append (h : Sequence xs n) (rest : List UInt8) :
    decode (xs ++ rest) = Char.ofNat n :: decode rest := by
  cases h with
  | one ha =>
    rw [List.cons_append, decode.eq_def]
    simp only [if_pos ha, List.nil_append]
  | @two a b ha hb =>
    have hlow : ¬a < 0x80 := by grind
    rw [List.cons_append, decode.eq_def]
    simp only [if_neg hlow, ha, hb, List.cons_append, List.nil_append, Bool.and_self, decide_true,
      ↓reduceIte]
  | @three a b c ha hb hc =>
    have hlow : ¬a < 0x80 := by grind
    have htwo : ¬a ≤ 0xDF := by grind
    rw [List.cons_append, decode.eq_def]
    simp only [if_neg hlow, htwo, ha, hb, hc, List.cons_append, List.nil_append, Bool.and_self,
      Bool.and_false, decide_true, decide_false, Bool.false_eq_true, ↓reduceIte]
  | @four a b c d ha hb hc hd =>
    have hlow : ¬a < 0x80 := by grind
    have htwo : ¬a ≤ 0xDF := by grind
    have hthree : ¬a ≤ 0xEF := by grind
    rw [List.cons_append, decode.eq_def]
    simp only [if_neg hlow, htwo, hthree, ha, hb, hc, hd, List.cons_append, List.nil_append,
      Bool.and_self, Bool.and_false, decide_true, decide_false, Bool.false_eq_true, ↓reduceIte]

/-! ## Writing -/

theorem toNat_ofNat_of_lt (h : n < 256) : (UInt8.ofNat n).toNat = n := UInt8.toNat_ofNat_of_lt' h

theorem ofNat_within (low high : Nat) (h : low ≤ n ∧ n ≤ high) (hhigh : high < 256) :
    UInt8.ofNat low ≤ UInt8.ofNat n ∧ UInt8.ofNat n ≤ UInt8.ofNat high := by
  have hn : n < 256 := Nat.lt_of_le_of_lt h.2 hhigh
  have hlow : low < 256 := Nat.lt_of_le_of_lt h.1 hn
  exact ⟨(UInt8.ofNat_le_iff_le hlow hn).2 h.1, (UInt8.ofNat_le_iff_le hn hhigh).2 h.2⟩

/-- The byte that is written for the last six bits of a number. -/
theorem isTail_ofNat (n : Nat) :
    isTail (UInt8.ofNat (n % 64 + 128)) = true ∧
      tailBits (UInt8.ofNat (n % 64 + 128)) = n % 64 := by
  rw [isTail_iff, tailBits, toNat_ofNat_of_lt (by omega)]
  omega

theorem sequence_of_le_127 (h : n ≤ 127) : Sequence [UInt8.ofNat n] n := by
  have hlow : UInt8.ofNat n < 0x80 := by
    rw [UInt8.lt_iff_toNat_lt, toNat_ofNat_of_lt (by omega)]
    exact Nat.lt_succ_of_le h
  have hseq := Sequence.one hlow
  rwa [toNat_ofNat_of_lt (by omega)] at hseq

theorem sequence_of_le_2047 (hlow : 127 < n) (h : n ≤ 2047) :
    Sequence [UInt8.ofNat (n / 64 % 32 + 192), UInt8.ofNat (n % 64 + 128)] n := by
  have hfirst := ofNat_within 0xC2 0xDF (n := n / 64 % 32 + 192) (by omega) (by decide)
  obtain ⟨htail, hbits⟩ := isTail_ofNat n
  have hseq := Sequence.two hfirst htail
  have hvalue : (n / 64 % 32 + 192) % 32 * 64 + n % 64 = n := by omega
  rwa [toNat_ofNat_of_lt (by omega), hbits, hvalue] at hseq

theorem sequence_of_le_65535 (hlow : 2047 < n) (h : n ≤ 65535) (hwhole : ¬(55296 ≤ n ∧ n ≤ 57343)) :
    Sequence [UInt8.ofNat (n / 4096 % 16 + 224), UInt8.ofNat (n / 64 % 64 + 128),
      UInt8.ofNat (n % 64 + 128)] n := by
  have hfirst := ofNat_within 0xE0 0xEF (n := n / 4096 % 16 + 224) (by omega) (by decide)
  obtain ⟨htail, hbits⟩ := isTail_ofNat (n / 64)
  obtain ⟨htail', hbits'⟩ := isTail_ofNat n
  -- the second byte shows that two would not do, and that this is no half of a pair
  have hsecond : isSecondOfThree (UInt8.ofNat (n / 4096 % 16 + 224))
      (UInt8.ofNat (n / 64 % 64 + 128)) = true := by
    rw [isSecondOfThree_iff, toNat_ofNat_of_lt (by omega), toNat_ofNat_of_lt (by omega)]
    exact ⟨htail, by omega, by omega⟩
  have hseq := Sequence.three hfirst hsecond htail'
  have hvalue : (n / 4096 % 16 + 224) % 16 * 4096 + n / 64 % 64 * 64 + n % 64 = n := by omega
  rwa [toNat_ofNat_of_lt (by omega), hbits, hbits', hvalue] at hseq

theorem sequence_of_lt_1114112 (hlow : 65535 < n) (h : n < 1114112) :
    Sequence [UInt8.ofNat (n / 262144 % 8 + 240), UInt8.ofNat (n / 4096 % 64 + 128),
      UInt8.ofNat (n / 64 % 64 + 128), UInt8.ofNat (n % 64 + 128)] n := by
  have hfirst := ofNat_within 0xF0 0xF4 (n := n / 262144 % 8 + 240) (by omega) (by decide)
  obtain ⟨htail, hbits⟩ := isTail_ofNat (n / 4096)
  obtain ⟨htail', hbits'⟩ := isTail_ofNat (n / 64)
  obtain ⟨htail'', hbits''⟩ := isTail_ofNat n
  have hsecond : isSecondOfFour (UInt8.ofNat (n / 262144 % 8 + 240))
      (UInt8.ofNat (n / 4096 % 64 + 128)) = true := by
    rw [isSecondOfFour_iff, toNat_ofNat_of_lt (by omega), toNat_ofNat_of_lt (by omega)]
    exact ⟨htail, by omega, by omega⟩
  have hseq := Sequence.four hfirst hsecond htail' htail''
  have hvalue : (n / 262144 % 8 + 240) % 8 * 262144 + n / 4096 % 64 * 4096 +
      n / 64 % 64 * 64 + n % 64 = n := by omega
  rwa [toNat_ofNat_of_lt (by omega), hbits, hbits', hbits'', hvalue] at hseq

theorem sequence_utf8EncodeChar (c : Char) : Sequence (String.utf8EncodeChar c) c.toNat := by
  have hvalid : c.toNat < 0xD800 ∨ 0xDFFF < c.toNat ∧ c.toNat < 0x110000 := c.valid
  generalize hn : c.toNat = n at hvalid ⊢
  have hval : c.val.toNat = n := hn
  rw [String.utf8EncodeChar.eq_1, hval]
  split
  · exact sequence_of_le_127 ‹_›
  split
  · exact sequence_of_le_2047 (by omega) ‹_›
  split
  · exact sequence_of_le_65535 (by omega) ‹_› (by omega)
  · exact sequence_of_lt_1114112 (by omega) (by omega)

/-! ## Texts -/

theorem decode_utf8EncodeChar_append (c : Char) (rest : List UInt8) :
    decode (String.utf8EncodeChar c ++ rest) = c :: decode rest := by
  rw [(sequence_utf8EncodeChar c).decode_append, Char.ofNat_toNat]

theorem decode_encode (cs : List Char) : decode (encode cs) = cs := by
  induction cs with
  | nil => rw [encode, List.flatMap_nil, decode]
  | cons c cs ih =>
    rw [encode, List.flatMap_cons, decode_utf8EncodeChar_append]
    exact congrArg (c :: ·) ih

theorem decode?_encode (cs : List Char) : decode? (encode cs) = some cs := by
  rw [decode?, decode_encode]
  exact if_pos (beq_self_eq_true _)

/-- A zero byte stands for a zero character, which reading would put out again. -/
theorem zero_not_mem_encode (h : nul ∉ cs) : 0 ∉ encode cs := by
  intro hzero
  obtain ⟨before, after, hsplit⟩ := List.append_of_mem hzero
  have hread := decode_append_zero before after
  rw [← hsplit, decode_encode] at hread
  exact h (hread ▸ List.mem_append_right _ List.mem_cons_self)

end PETriage.Text.Utf8
