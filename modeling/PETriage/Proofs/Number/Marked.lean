import Mathlib.Algebra.GroupWithZero.Nat
import PETriage.Proofs.Number.Spelled

/-!
# Literals whose mark tells their base

A literal is decimal, or it is hexadecimal, octal or binary behind a zero and a mark. Single
underscores may stand between its digits, a sign before it and blanks around it. A decimal literal
starts with a zero only when it is zero, and has no more digits than a text may have.
-/
namespace PETriage.Number

variable {base n : Nat} {ds : List Nat} {c : Char} {cs : List Char}

/-- Digits of the base, at most one underscore between two of them, and their values. -/
inductive Spaced (base : Nat) : List Char → List Nat → Prop
  | last {c : Char} {d : Nat} (hc : digitIn? base c = some d) : Spaced base [c] [d]
  | next {c : Char} {d : Nat} {cs : List Char} {ds : List Nat} (hc : digitIn? base c = some d)
    (hrest : Spaced base cs ds) : Spaced base (c :: cs) (d :: ds)
  | spaced {c : Char} {d : Nat} {cs : List Char} {ds : List Nat} (hc : digitIn? base c = some d)
    (hrest : Spaced base cs ds) : Spaced base (c :: '_' :: cs) (d :: ds)

namespace Spaced

theorem exists_cons (h : Spaced base cs ds) :
    ∃ c rest d ds', cs = c :: rest ∧ ds = d :: ds' ∧ digitIn? base c = some d := by
  cases h with
  | last hc => exact ⟨_, _, _, _, rfl, rfl, hc⟩
  | next hc _ => exact ⟨_, _, _, _, rfl, rfl, hc⟩
  | spaced hc _ => exact ⟨_, _, _, _, rfl, rfl, hc⟩

theorem head (h : Spaced base (c :: cs) ds) :
    ∃ d ds', ds = d :: ds' ∧ digitIn? base c = some d := by
  obtain ⟨_, _, d, ds', he, hd, hc⟩ := h.exists_cons
  cases he
  exact ⟨d, ds', hd, hc⟩

theorem head_ne_underscore (h : Spaced base (c :: cs) ds) : c ≠ '_' := by
  obtain ⟨_, _, -, hc⟩ := h.head
  exact (isPlain_of_digitIn? hc).underscore

/-- Digits without any underscore are spaced digits. -/
theorem of_forall₂ (hne : cs ≠ [])
    (h : List.Forall₂ (fun c d => digitIn? base c = some d) cs ds) : Spaced base cs ds := by
  induction h with
  | nil => exact absurd rfl hne
  | @cons c d cs ds hc hrest ih =>
    cases hrest with
    | nil => exact .last hc
    | cons _ _ => exact .next hc (ih (List.cons_ne_nil _ _))

end Spaced

theorem spaced_of_digits? (h : digits? base cs = some ds) : Spaced base cs ds := by
  induction cs using digits?.induct generalizing ds with
  | case1 => cases h
  | case2 c =>
    obtain ⟨d, hc, rfl⟩ := Option.map_eq_some_iff.1 h
    exact .last hc
  | case3 c rest ih =>
    simp only [digits?, Option.bind_eq_bind, Option.bind_eq_some_iff, Option.pure_def,
      Option.some.injEq] at h
    obtain ⟨d, hc, ds, hrest, rfl⟩ := h
    exact .spaced hc (ih hrest)
  | case4 c rest hne hu ih =>
    rw [digits?.eq_4 _ _ _ hne hu] at h
    simp only [Option.bind_eq_bind, Option.bind_eq_some_iff, Option.pure_def,
      Option.some.injEq] at h
    obtain ⟨d, hc, ds, hrest, rfl⟩ := h
    exact .next hc (ih hrest)

theorem digits?_of_spaced (h : Spaced base cs ds) : digits? base cs = some ds := by
  induction h with
  | last hc => rw [digits?, hc, Option.map_some]
  | @next c d cs ds hc hrest ih =>
    obtain ⟨e, rest, -, -, rfl, -, -⟩ := hrest.exists_cons
    rw [digits?, hc, ih]
    · rfl
    · exact List.cons_ne_nil _ _
    · intro _ h
      exact hrest.head_ne_underscore (List.cons.inj h).1
  | spaced hc _ ih =>
    rw [digits?, hc, ih]
    rfl

theorem digits?_eq_some_iff : digits? base cs = some ds ↔ Spaced base cs ds :=
  ⟨spaced_of_digits?, digits?_of_spaced⟩

theorem decimalDigits?_eq_some_iff :
    decimalDigits? cs = some ds ↔ Spaced 10 cs ds ∧ ds.length ≤ decimalDigitLimit := by
  simp only [decimalDigits?, Option.bind_eq_some_iff, digits?_eq_some_iff,
    Option.ite_none_right_eq_some, Option.some.injEq]
  constructor
  · rintro ⟨es, h, hl, rfl⟩
    exact ⟨h, hl⟩
  · rintro ⟨h, hl⟩
    exact ⟨ds, h, hl, rfl⟩

/-! ## Zeros in front -/

theorem eq_zero_ofNat : ∀ k < 103, digitIn? 10 (Char.ofNat k) = some 0 → Char.ofNat k = '0' := by
  decide +kernel

theorem eq_zero_of_digitIn? (h : digitIn? 10 c = some 0) : c = '0' := by
  have hz := eq_zero_ofNat c.toNat (toNat_lt_of_hexDigitValue? (hexDigitValue?_of_digitIn? h))
  rw [Char.ofNat_toNat] at hz
  exact hz h

theorem markBase?_of_digitIn? {d : Nat} (h : digitIn? 10 c = some d) : markBase? c = none := by
  unfold markBase?
  split
  all_goals first | rfl | cases h

theorem ofDigits_of_zeros (h : ∀ d ∈ ds, d = 0) : ofDigits base ds = 0 := by
  have hz : ofDigits base (List.replicate ds.length 0 ++ []) = ofDigits base [] :=
    ofDigits_zeros ds.length []
  rwa [List.append_nil, ← List.eq_replicate_of_mem h] at hz

/-! ## Literals -/

/-- A literal without a sign, and the number that it stands for. -/
inductive Literal : List Char → Nat → Prop
  | marked {mark : Char} {base : Nat} {cs : List Char} {ds : List Nat}
    (hm : markBase? mark = some base) (h : Spaced base cs ds) :
    Literal ('0' :: mark :: cs) (ofDigits base ds)
  | underscored {mark : Char} {base : Nat} {cs : List Char} {ds : List Nat}
    (hm : markBase? mark = some base) (h : Spaced base cs ds) :
    Literal ('0' :: mark :: '_' :: cs) (ofDigits base ds)
  | decimal {cs : List Char} {ds : List Nat} (h : Spaced 10 cs ds)
    (hl : ds.length ≤ decimalDigitLimit) (hz : ds.head? ≠ some 0) : Literal cs (ofDigits 10 ds)
  | zero {cs : List Char} {ds : List Nat} (h : Spaced 10 cs ds)
    (hl : ds.length ≤ decimalDigitLimit) (hz : ∀ d ∈ ds, d = 0) : Literal cs 0

theorem afterMark_of_spaced (h : Spaced base cs ds) : afterMark cs = cs := by
  obtain ⟨c, rest, -, -, rfl, -, -⟩ := h.exists_cons
  rw [afterMark]
  exact fun _ he => h.head_ne_underscore (List.cons.inj he).1

theorem markBase?_of_spaced {rest : List Char} (h : Spaced 10 ('0' :: c :: rest) ds) :
    markBase? c = none := by
  cases h with
  | next _ hrest =>
    obtain ⟨d, -, -, hc⟩ := hrest.head
    exact markBase?_of_digitIn? hc
  | spaced _ _ => rfl

theorem head?_of_spaced_zero (h : Spaced 10 ('0' :: cs) ds) : ds.head? = some 0 := by
  obtain ⟨d, ds', rfl, hc⟩ := h.head
  cases hc
  rfl

/-- A zero in front with nothing behind it is all there is. -/
theorem zeros_of_lone (h : Spaced 10 cs ds) (hz : ds.head? = some 0)
    (hlone : ∀ c rest, cs = '0' :: c :: rest → False) : ∀ d ∈ ds, d = 0 := by
  obtain ⟨c, rest, d, ds', rfl, rfl, hc⟩ := h.exists_cons
  obtain rfl := eq_zero_of_digitIn? ((Option.some.inj hz) ▸ hc)
  cases rest with
  | nil =>
    cases h with
    | last hc => exact List.forall_mem_singleton.2 (Option.some.inj hz)
    | next _ hrest => cases hrest
  | cons e rest => exact absurd rfl (hlone e rest)

theorem literal_of_readMarked? (h : readMarked? cs = some n) : Literal cs n := by
  unfold readMarked? at h
  split at h
  · rename_i c rest
    split at h
    · rename_i base hm
      obtain ⟨ds, hd, rfl⟩ := Option.map_eq_some_iff.1 h
      rw [digits?_eq_some_iff] at hd
      unfold afterMark at hd
      split at hd
      · exact .underscored hm hd
      · exact .marked hm hd
    · simp only [Option.bind_eq_some_iff, decimalDigits?_eq_some_iff, Option.ite_none_right_eq_some,
        Option.some.injEq, List.all_eq_true, beq_iff_eq] at h
      obtain ⟨ds, ⟨hd, hl⟩, hz, rfl⟩ := h
      exact .zero hd hl hz
  · rename_i hlone
    obtain ⟨ds, hd, rfl⟩ := Option.map_eq_some_iff.1 h
    obtain ⟨hd, hl⟩ := decimalDigits?_eq_some_iff.1 hd
    by_cases hz : ds.head? = some 0
    · have hzeros := zeros_of_lone hd hz hlone
      rw [ofDigits_of_zeros hzeros]
      exact .zero hd hl hzeros
    · exact .decimal hd hl hz

theorem readMarked?_decimal (h : Spaced 10 cs ds) (hl : ds.length ≤ decimalDigitLimit)
    (hz : ds.head? ≠ some 0) : readMarked? cs = some (ofDigits 10 ds) := by
  rw [readMarked?]
  · rw [decimalDigits?_eq_some_iff.2 ⟨h, hl⟩, Option.map_some]
  · rintro c rest rfl
    exact hz (head?_of_spaced_zero h)

theorem readMarked?_zero (h : Spaced 10 cs ds) (hl : ds.length ≤ decimalDigitLimit)
    (hz : ∀ d ∈ ds, d = 0) : readMarked? cs = some 0 := by
  have hd := decimalDigits?_eq_some_iff.2 ⟨h, hl⟩
  have hall : ds.all (· == 0) = true := by simpa using hz
  unfold readMarked?
  split
  · rw [markBase?_of_spaced h, hd, Option.bind_some, if_pos hall]
  · rw [hd, Option.map_some, ofDigits_of_zeros hz]

theorem readMarked?_of_literal (h : Literal cs n) : readMarked? cs = some n := by
  cases h with
  | marked hm h =>
    simp only [readMarked?, hm, afterMark_of_spaced h, digits?_of_spaced h, Option.map_some]
  | underscored hm h => simp only [readMarked?, hm, afterMark, digits?_of_spaced h, Option.map_some]
  | decimal h hl hz => exact readMarked?_decimal h hl hz
  | zero h hl hz => exact readMarked?_zero h hl hz

/-- What is read without a sign is exactly the literals, each as the number it stands for. -/
theorem readMarked?_eq_some_iff : readMarked? cs = some n ↔ Literal cs n :=
  ⟨literal_of_readMarked?, readMarked?_of_literal⟩

/-- A decimal literal with a zero in front is zero. -/
theorem readMarked?_of_zero_front (h : Spaced 10 ('0' :: cs) ds) (hv : ofDigits 10 ds ≠ 0) :
    readMarked? ('0' :: cs) = none := by
  rw [Option.eq_none_iff_forall_ne_some]
  intro n hn
  cases readMarked?_eq_some_iff.1 hn with
  | marked hm _ => cases (markBase?_of_spaced h).symm.trans hm
  | underscored hm _ => cases (markBase?_of_spaced h).symm.trans hm
  | decimal hd _ hz => exact hz (head?_of_spaced_zero hd)
  | zero hd _ hz =>
    have hds := Option.some.inj ((digits?_of_spaced h).symm.trans (digits?_of_spaced hd))
    exact hv (ofDigits_of_zeros (hds ▸ hz))

/-- A decimal literal has no more digits than a text may have. -/
theorem readMarked?_of_long (h : Spaced 10 cs ds) (hl : decimalDigitLimit < ds.length) :
    readMarked? cs = none := by
  have hd : decimalDigits? cs = none := by
    rw [decimalDigits?, digits?_of_spaced h, Option.bind_some, if_neg (by omega)]
  unfold readMarked?
  split
  · rw [markBase?_of_spaced h, hd, Option.bind_none]
  · rw [hd, Option.map_none]

/-! ## Signs and blanks around a literal -/

/-- A character inside a literal: no blank and no sign, and it stands for itself. -/
structure IsInner (c : Char) : Prop where
  margin : isMargin c = false
  digit : plainDigit c = c
  sign : c ≠ '-' ∧ c ≠ '+'

theorem IsPlain.inner (h : IsPlain c) : IsInner c := ⟨h.margin, h.digit, h.sign⟩

theorem isInner_underscore : IsInner '_' := ⟨by decide, by decide, by decide⟩

theorem isInner_mark (hm : markBase? c = some base) : IsInner c := by
  unfold markBase? at hm
  split at hm
  all_goals first | exact ⟨by decide, by decide, by decide⟩ | cases hm

theorem Spaced.inner (h : Spaced base cs ds) : ∀ c ∈ cs, IsInner c := by
  induction h with
  | last hc => exact List.forall_mem_cons.2 ⟨(isPlain_of_digitIn? hc).inner, List.forall_mem_nil _⟩
  | next hc _ ih => exact List.forall_mem_cons.2 ⟨(isPlain_of_digitIn? hc).inner, ih⟩
  | spaced hc _ ih =>
    exact List.forall_mem_cons.2
      ⟨(isPlain_of_digitIn? hc).inner, List.forall_mem_cons.2 ⟨isInner_underscore, ih⟩⟩

theorem Spaced.ne_nil (h : Spaced base cs ds) : cs ≠ [] := by
  obtain ⟨_, _, _, _, rfl, -, -⟩ := h.exists_cons
  exact List.cons_ne_nil _ _

theorem Literal.ne_nil (h : Literal cs n) : cs ≠ [] := by
  cases h with
  | marked _ _ => exact List.cons_ne_nil _ _
  | underscored _ _ => exact List.cons_ne_nil _ _
  | decimal h _ _ => exact h.ne_nil
  | zero h _ _ => exact h.ne_nil

theorem Literal.inner (h : Literal cs n) : ∀ c ∈ cs, IsInner c := by
  have hzero : IsInner '0' := ⟨by decide, by decide, by decide⟩
  cases h with
  | marked hm h =>
    exact List.forall_mem_cons.2 ⟨hzero, List.forall_mem_cons.2 ⟨isInner_mark hm, h.inner⟩⟩
  | underscored hm h =>
    exact List.forall_mem_cons.2 ⟨hzero, List.forall_mem_cons.2 ⟨isInner_mark hm,
      List.forall_mem_cons.2 ⟨isInner_underscore, h.inner⟩⟩⟩
  | decimal h _ _ => exact h.inner
  | zero h _ _ => exact h.inner

/-- Blanks, at most one sign and the characters of a literal, and blanks again; true for a
minus. -/
inductive Around (body : List Char) : List Char → Bool → Prop
  | bare {before after : List Char} (hb : ∀ c ∈ before, isMargin c = true)
    (ha : ∀ c ∈ after, isMargin c = true) : Around body (before ++ body ++ after) false
  | plus {before after : List Char} (hb : ∀ c ∈ before, isMargin c = true)
    (ha : ∀ c ∈ after, isMargin c = true) : Around body (before ++ '+' :: body ++ after) false
  | minus {before after : List Char} (hb : ∀ c ∈ before, isMargin c = true)
    (ha : ∀ c ∈ after, isMargin c = true) : Around body (before ++ '-' :: body ++ after) true

theorem withoutMargin_around {before after : List Char} (hb : ∀ c ∈ before, isMargin c = true)
    (ha : ∀ c ∈ after, isMargin c = true) (hne : cs ≠ [])
    (h : ∀ c ∈ cs, isMargin c = false ∧ plainDigit c = c) :
    withoutMargin (before ++ cs ++ after) = cs := by
  have hfront : (before ++ cs ++ after).dropWhile isMargin = cs ++ after := by
    obtain ⟨c, rest, rfl⟩ := List.exists_cons_of_ne_nil hne
    rw [List.append_assoc, List.dropWhile_append_of_pos hb, List.cons_append,
      List.dropWhile_cons_of_neg (by simp [(h c List.mem_cons_self).1])]
  have hback : (cs ++ after).reverse.dropWhile isMargin = cs.reverse := by
    rw [List.reverse_append,
      List.dropWhile_append_of_pos fun c hc => ha c (List.mem_reverse.1 hc),
      Text.dropWhile_of_none fun c hc => (h c (List.mem_reverse.1 hc)).1]
  rw [withoutMargin, hfront, hback, List.reverse_reverse]
  exact (List.map_congr_left fun c hc => (h c hc).2).trans (List.map_id cs)

theorem signed_of_inner (hne : cs ≠ []) (h : ∀ c ∈ cs, IsInner c) : signed cs = (false, cs) := by
  obtain ⟨c, rest, rfl⟩ := List.exists_cons_of_ne_nil hne
  obtain ⟨hm, hp⟩ := (h c List.mem_cons_self).sign
  rw [signed]
  · exact fun _ he => hm (List.cons.inj he).1
  · exact fun _ he => hp (List.cons.inj he).1

/-- Blanks and a sign leave the reading of what they stand around as it is, up to the sign. -/
theorem readInteger?_around {body : List Char} {negative : Bool} (h : Around body cs negative)
    (hne : body ≠ []) (hi : ∀ c ∈ body, IsInner c) :
    readInteger? cs = (readMarked? body).map (applySign negative) := by
  have hbody : ∀ c ∈ body, isMargin c = false ∧ plainDigit c = c :=
    fun c hc => ⟨(hi c hc).margin, (hi c hc).digit⟩
  have hsigned : ∀ sign : Char, isMargin sign = false ∧ plainDigit sign = sign →
      ∀ c ∈ sign :: body, isMargin c = false ∧ plainDigit c = c :=
    fun _ hs => List.forall_mem_cons.2 ⟨hs, hbody⟩
  cases h with
  | bare hb ha => rw [readInteger?, withoutMargin_around hb ha hne hbody, signed_of_inner hne hi]
  | plus hb ha =>
    rw [readInteger?, withoutMargin_around hb ha (List.cons_ne_nil _ _) (hsigned '+' (by decide)),
      signed]
  | minus hb ha =>
    rw [readInteger?, withoutMargin_around hb ha (List.cons_ne_nil _ _) (hsigned '-' (by decide)),
      signed]

/-- A literal with a sign and blanks around it, and the number that it stands for. -/
inductive IntegerText : List Char → Int → Prop
  | intro {body cs : List Char} {n : Nat} {negative : Bool} (ha : Around body cs negative)
    (h : Literal body n) : IntegerText cs (applySign negative n)

/-- A decimal number other than zero that is written with a zero in front. -/
inductive ZeroFront : List Char → Prop
  | intro {body cs : List Char} {ds : List Nat} {negative : Bool}
    (ha : Around ('0' :: body) cs negative) (h : Spaced 10 ('0' :: body) ds)
    (hv : ofDigits 10 ds ≠ 0) : ZeroFront cs

/-- A decimal number of more digits than a text may have. -/
inductive TooLong : List Char → Prop
  | intro {body cs : List Char} {ds : List Nat} {negative : Bool} (ha : Around body cs negative)
    (h : Spaced 10 body ds) (hl : decimalDigitLimit < ds.length) : TooLong cs

theorem readInteger?_of_text {m : Int} (h : IntegerText cs m) : readInteger? cs = some m := by
  cases h with
  | intro ha h =>
    rw [readInteger?_around ha h.ne_nil h.inner, readMarked?_of_literal h, Option.map_some]

theorem readInteger?_of_zeroFront (h : ZeroFront cs) : readInteger? cs = none := by
  cases h with
  | intro ha h hv =>
    rw [readInteger?_around ha h.ne_nil h.inner, readMarked?_of_zero_front h hv, Option.map_none]

theorem readInteger?_of_tooLong (h : TooLong cs) : readInteger? cs = none := by
  cases h with
  | intro ha h hl =>
    rw [readInteger?_around ha h.ne_nil h.inner, readMarked?_of_long h hl, Option.map_none]

/-! ## Texts of every whole number -/

/-- The sign of a number before the digits of its size. -/
def behindSign (m : Int) (body : List Char) : List Char := if m < 0 then '-' :: body else body

theorem around_bare (cs : List Char) : Around cs cs false := by
  have h : Around cs ([] ++ cs ++ []) false := .bare (List.forall_mem_nil _) (List.forall_mem_nil _)
  rwa [List.nil_append, List.append_nil] at h

theorem around_minus (cs : List Char) : Around cs ('-' :: cs) true := by
  have h : Around cs ([] ++ '-' :: cs ++ []) true :=
    .minus (List.forall_mem_nil _) (List.forall_mem_nil _)
  rwa [List.nil_append, List.append_nil] at h

theorem integerText_behindSign {m : Int} (h : Literal cs m.natAbs) :
    IntegerText (behindSign m cs) m := by
  unfold behindSign
  split
  · have ht := IntegerText.intro (around_minus cs) h
    have hm : applySign true m.natAbs = m := by
      simp only [applySign, ↓reduceIte]
      omega
    rwa [hm] at ht
  · have ht := IntegerText.intro (around_bare cs) h
    have hm : applySign false m.natAbs = m := by
      simp only [applySign, Bool.false_eq_true, ↓reduceIte]
      omega
    rwa [hm] at ht

theorem spaced_toDigits (hb : 1 < base) (hb' : base ≤ 16) (n : Nat) :
    ∃ ds, Spaced base (Nat.toDigits base n) ds ∧ ofDigits base ds = n ∧
      ds.length = (Nat.toDigits base n).length := by
  have hs := spells_toDigits hb hb' n
  obtain ⟨ds, hd, hv⟩ := hs.value
  exact ⟨ds, .of_forall₂ hs.nonempty hd, hv, hd.length_eq.symm⟩

theorem markBase?_range {mark : Char} (hm : markBase? mark = some base) : 1 < base ∧ base ≤ 16 := by
  unfold markBase? at hm
  split at hm
  all_goals first | (cases hm; decide) | cases hm

/-- The digits of a number behind a mark are a literal of it. -/
theorem literal_marked {mark : Char} (hm : markBase? mark = some base) (n : Nat) :
    Literal ('0' :: mark :: Nat.toDigits base n) n := by
  obtain ⟨hb, hb'⟩ := markBase?_range hm
  obtain ⟨ds, hs, hv, -⟩ := spaced_toDigits hb hb' n
  have hl := Literal.marked hm hs
  rwa [hv] at hl

/-- The digits of a number that is not too long are a literal of it. -/
theorem literal_toDigits (n : Nat) (hl : (Nat.toDigits 10 n).length ≤ decimalDigitLimit) :
    Literal (Nat.toDigits 10 n) n := by
  obtain ⟨ds, hs, hv, hlen⟩ := spaced_toDigits (by decide : 1 < 10) (by decide) n
  rw [← hlen] at hl
  cases Nat.eq_zero_or_pos n with
  | inl hz =>
    subst hz
    exact .zero (.last rfl) (by decide) (by decide)
  | inr hpos =>
    obtain ⟨d, es, hd, hlt, hm⟩ := exists_toDigits_of_pos hpos
    have hhead : ds.head? = some d := by
      rw [hm, List.map_cons] at hs
      obtain ⟨e, ds', rfl, he⟩ := hs.head
      rw [digitIn?_digitChar (by decide) (hlt d List.mem_cons_self)] at he
      exact he.symm
    have hz : ds.head? ≠ some 0 := fun h0 => Nat.ne_of_gt hd (Option.some.inj (hhead.symm.trans h0))
    have ht := Literal.decimal hs hl hz
    rwa [hv] at ht

/-- A one with zeros behind it spells a power of ten. -/
theorem spaced_power (k : Nat) :
    Spaced 10 ('1' :: List.replicate k '0') (1 :: List.replicate k 0) := by
  refine .of_forall₂ (List.cons_ne_nil _ _) (.cons rfl ?_)
  induction k with
  | zero => exact .nil
  | succ k ih => exact .cons rfl ih

theorem ofDigits_power (base k : Nat) : ofDigits base (1 :: List.replicate k 0) = base ^ k := by
  induction k with
  | zero => simp [ofDigits]
  | succ k ih =>
    rw [List.replicate_succ', ← List.cons_append, ofDigits_append, ih, List.foldl_cons,
      List.foldl_nil, Nat.add_zero, Nat.pow_succ]

end PETriage.Number
