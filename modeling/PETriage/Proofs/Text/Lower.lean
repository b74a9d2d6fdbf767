import PETriage.Proofs.Text.Trim
import PETriage.Text.Case

/-!
# What lower case keeps

A blank character is its own lower case and no other character has blanks for it, so a text is
blank after lowering exactly when it was before. No ASCII capital is left.
-/
namespace PETriage.Text

variable {c : Char} {cs : List Char}

/-! ## Blanks by their numbers -/

def blanks : List Nat :=
  List.range' 9 5 ++ List.range' 28 5 ++ [0x85, 0xA0, 0x1680] ++ List.range' 0x2000 11 ++
    [0x2028, 0x2029, 0x202F, 0x205F, 0x3000]

theorem isBlank_iff : isBlank c = true ↔ c.toNat ∈ blanks := by
  simp only [isBlank, blanks, Bool.or_eq_true, Bool.and_eq_true, decide_eq_true_eq, beq_iff_eq,
    List.mem_append, List.mem_range'_1, List.mem_cons, List.not_mem_nil, or_false]
  omega

def AsciiCapital (c : Char) : Prop := 65 ≤ c.toNat ∧ c.toNat ≤ 90

/-! ## Runs of the case table -/

/-- No run starts from a blank, and none leads to a blank or to an ASCII capital. -/
theorem lowerRuns_apart : ∀ run ∈ lowerRuns.toList,
    (∀ b ∈ blanks, ¬(run.1 ≤ b ∧ b ≤ run.2.1) ∧
      ¬(run.2.2.2 ≤ b ∧ b ≤ run.2.2.2 + run.2.1 - run.1)) ∧ 90 < run.2.2.2 := by
  decide +kernel

theorem exists_run_of_imageIn {runs : Array (Nat × Nat × Nat × Nat)} {n m : Nat}
    (h : imageIn runs n = some m) : ∃ run ∈ runs.toList, run.1 ≤ n ∧ n ≤ run.2.1 ∧
      m = run.2.2.2 + n - run.1 := by
  obtain ⟨run, hfind, rfl⟩ := Option.map_eq_some_iff.1 h
  have hrun := Array.find?_some hfind
  simp only [Bool.and_eq_true, decide_eq_true_eq] at hrun
  exact ⟨run, Array.mem_toList_iff.2 (Array.mem_of_find?_eq_some hfind), hrun.1.1, hrun.1.2, rfl⟩

theorem toNat_ofNat_eq_or (n : Nat) : (Char.ofNat n).toNat = n ∨ (Char.ofNat n).toNat = 0 := by
  by_cases hv : n.isValidChar
  · rw [Char.ofNat, dif_pos hv]
    exact .inl rfl
  · rw [Char.ofNat, dif_neg hv]
    exact .inr rfl

theorem forall_of_ascii {P : Char → Prop} (h : ∀ n < 128, P (Char.ofNat n)) (hc : c.toNat < 128) :
    P c := Char.ofNat_toNat c ▸ h c.toNat hc

/-! ## One character -/

/-- What a character may become: itself when it is blank, else something that is not all blank. -/
structure Lowered (c : Char) (out : List Char) : Prop where
  blank : (∀ d ∈ out, isBlank d = true) ↔ isBlank c = true
  capital : ∀ d ∈ out, ¬AsciiCapital d

theorem lowered_single {d : Char} (hblank : isBlank d = isBlank c) (hcapital : ¬AsciiCapital d) :
    Lowered c [d] where
  blank := by rw [List.forall_mem_singleton, hblank]
  capital := List.forall_mem_singleton.2 hcapital

/-- A character that is not blank becomes another one that is not blank. -/
theorem lowered_ofNat {m : Nat} (hc : isBlank c = false) (hm : m ∉ blanks) (hcapital : 90 < m) :
    Lowered c [Char.ofNat m] := by
  refine lowered_single (hc ▸ Bool.eq_false_iff.2 fun hb => ?_) fun h => ?_
  · rcases toNat_ofNat_eq_or m with heq | heq
    · exact hm (heq ▸ isBlank_iff.1 hb)
    · rw [isBlank_iff, heq] at hb
      exact absurd hb (by decide)
  · rcases toNat_ofNat_eq_or m with heq | heq
    · exact absurd (heq ▸ h.2) (Nat.not_le_of_lt hcapital)
    · exact absurd (heq ▸ h.1) (by decide)

theorem lowered_toLower (hc : c.toNat < 128) : Lowered c [c.toLower] := by
  have hblank : isBlank c.toLower = isBlank c :=
    forall_of_ascii (P := fun c => isBlank c.toLower = isBlank c) (by decide) hc
  have hcapital : ¬AsciiCapital c.toLower :=
    forall_of_ascii (P := fun c => ¬(65 ≤ c.toLower.toNat ∧ c.toLower.toNat ≤ 90)) (by decide) hc
  exact lowered_single hblank hcapital

theorem lowerChar_lowered (c : Char) : Lowered c (lowerChar c) := by
  rw [lowerChar]
  split
  · exact lowered_toLower ‹_›
  rename_i hascii
  split
  · rename_i hdotted
    have hc : isBlank c = false := by
      rw [Bool.eq_false_iff, ne_eq, isBlank_iff, eq_of_beq hdotted]
      decide
    constructor
    · rw [hc]
      exact ⟨fun h => absurd (h 'i' List.mem_cons_self) (by decide), nofun⟩
    · show ∀ d ∈ ['i', Char.ofNat 775], ¬(65 ≤ d.toNat ∧ d.toNat ≤ 90)
      exact List.forall_mem_cons.2 ⟨by decide, List.forall_mem_singleton.2 (by decide)⟩
  · cases himage : imageIn lowerRuns c.toNat with
    | none => exact lowered_single rfl fun h => hascii (Nat.lt_of_le_of_lt h.2 (by decide))
    | some m =>
      obtain ⟨run, hrun, hfirst, hlast, rfl⟩ := exists_run_of_imageIn himage
      obtain ⟨hblanks, himages⟩ := lowerRuns_apart run hrun
      refine lowered_ofNat ?_ (fun hm => (hblanks _ hm).2 (by omega)) (by omega)
      rw [Bool.eq_false_iff, ne_eq, isBlank_iff]
      exact fun hc => (hblanks _ hc).1 ⟨hfirst, hlast⟩

/-! ## Whole texts -/

theorem sigma_lowered (last : Bool) :
    Lowered capitalSigma [Char.ofNat (if last then 0x3C2 else 0x3C3)] := by
  cases last
  · exact lowered_ofNat rfl (by decide) (by decide)
  · exact lowered_ofNat rfl (by decide) (by decide)

theorem lowerAfter_cons (c : Char) (before rest : List Char) :
    ∃ out, lowerAfter before (c :: rest) = out ++ lowerAfter (c :: before) rest ∧
      Lowered c out := by
  refine ⟨_, rfl, ?_⟩
  split
  · rename_i hsigma
    rw [eq_of_beq hsigma]
    exact sigma_lowered _
  · exact lowerChar_lowered c

theorem forall_isBlank_lowerAfter (before : List Char) :
    (∀ d ∈ lowerAfter before cs, isBlank d = true) ↔ ∀ c ∈ cs, isBlank c = true := by
  induction cs generalizing before with
  | nil => exact Iff.rfl
  | cons c cs ih =>
    obtain ⟨out, heq, hout⟩ := lowerAfter_cons c before cs
    rw [heq, List.forall_mem_append, hout.blank, ih, List.forall_mem_cons]

theorem not_asciiCapital_lowerAfter (before : List Char) :
    ∀ d ∈ lowerAfter before cs, ¬AsciiCapital d := by
  induction cs generalizing before with
  | nil => nofun
  | cons c cs ih =>
    obtain ⟨out, heq, hout⟩ := lowerAfter_cons c before cs
    rw [heq, List.forall_mem_append]
    exact ⟨hout.capital, ih _⟩

/-- Lowering makes no text blank, and none that is blank anything else. -/
theorem forall_isBlank_lower : (∀ d ∈ lower cs, isBlank d = true) ↔ ∀ c ∈ cs, isBlank c = true :=
  forall_isBlank_lowerAfter []

theorem not_asciiCapital_lower : ∀ d ∈ lower cs, ¬AsciiCapital d := not_asciiCapital_lowerAfter []

end PETriage.Text
