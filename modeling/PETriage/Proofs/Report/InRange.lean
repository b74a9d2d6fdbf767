import PETriage.External.Analyzer
import PETriage.Proofs.Field.Deciding
import PETriage.Proofs.Json.Display
import PETriage.Proofs.Report.Canonical
import PETriage.Proofs.Report.Room

/-!
# Payloads that can be normalized

A payload comes to an analysis, unless a whole number in it is too large, for the decimal text
it is to be written as or for the binary value that the entropy of a resource is kept as, or
there is no room to copy the payload. Nothing else in a payload stops it, whatever kinds of values
stand in whichever places.
-/
namespace PETriage.Report

open Number (Writable)

theorem succeeds_liftWritten_iff {α : Type} {x : Except Number.WrittenError α} :
    Succeeds (liftWritten x) ↔ Succeeds x :=
  exists_congr fun _ => liftWritten_eq_ok_iff

theorem succeeds_liftRange_iff {α : Type} {x : Except Field.RangeError α} :
    Succeeds (liftRange x) ↔ Succeeds x := by
  cases x with
  | ok a => exact iff_of_true (succeeds_ok a) (succeeds_ok a)
  | error e =>
    cases e
    exact iff_of_false (not_succeeds_error _) (not_succeeds_error _)

/-- The items of a list under a key, and none where there is no list. -/
def itemsAt (o : Fields) (key : String) : List Value := (fieldOrNull o key).items?.getD []

/-! ## Imports -/

/-- What the text of a function is spelled from. -/
def functionSource : Value → Value
  | .object o => ((Keyed.get? o "name").filter Value.counts).getD
      ((Keyed.get? o "ordinal").getD (.str "?"))
  | v => v

theorem succeeds_functionName_iff (v : Value) :
    Succeeds (functionName v) ↔ ∀ n ∈ (functionSource v).wholes, Writable n := by
  cases v with
  | object o =>
    rw [functionName, functionSource]
    cases (Keyed.get? o "name").filter Value.counts with
    | some name => exact succeeds_liftWritten_iff.trans (Display.succeeds_shown_iff _)
    | none =>
      exact succeeds_map_iff.trans (succeeds_liftWritten_iff.trans (Display.succeeds_shown_iff _))
  | _ =>
    rw [functionName, functionSource, succeeds_liftWritten_iff, Display.succeeds_shown_iff]
    all_goals
      intro o h
      cases h

theorem functionsOf_eq (i : Fields) :
    functionsOf (i.get? "functions") = (itemsAt i "functions").mapM functionName := by
  rw [itemsAt, fieldOrNull]
  cases i.get? "functions" with
  | none => rfl
  | some v => cases v <;> rfl

theorem succeeds_importOf?_iff (v : Value) : Succeeds (importOf? v) ↔
    ∀ i, v = .object i → ∀ f ∈ itemsAt i "functions",
      ∀ n ∈ (functionSource f).wholes, Writable n := by
  cases v with
  | object i =>
    rw [importOf?, succeeds_bind_pure_iff, functionsOf_eq, succeeds_mapM_iff]
    simp only [succeeds_functionName_iff, Value.object.injEq, forall_eq']
  | _ => exact iff_of_true (succeeds_ok none) nofun

theorem succeeds_importsOf_iff (v : Value) :
    Succeeds (importsOf v) ↔ ∀ x ∈ v.items?.getD [], Succeeds (importOf? x) := by
  cases v with
  | list items => exact succeeds_bind_pure_iff.trans succeeds_mapM_iff
  | _ => exact iff_of_true (succeeds_ok none) nofun

/-! ## Resources -/

/-- The numbers of a resource are not too large: that of its language for a text, and its entropy
for a binary value. -/
structure ResourceInRange (r : Fields) : Prop where
  language : ∀ n : Nat, Field.resourceLanguage.resolve (.object r) = .number n → Writable n
  entropy : ∀ n : Int, r.get? "entropy" = some (.int n) → n.natAbs < Number.overflowBound

theorem succeeds_text_iff (l : Field.Language) :
    Succeeds l.text ↔ ∀ n : Nat, l = .number n → Writable n := by
  cases l with
  | name s => exact iff_of_true (succeeds_ok s) nofun
  | number n =>
    rw [Field.Language.text, succeeds_map_iff, Number.succeeds_decimal?_iff]
    simp only [Field.Language.number.injEq, forall_eq']

theorem succeeds_resourceEntropy_iff (r : Fields) :
    Succeeds (Field.resourceEntropy.resolve (.object r)) ↔
      ∀ n : Int, r.get? "entropy" = some (.int n) → n.natAbs < Number.overflowBound := by
  rw [succeeds_iff_ne_error, ← Field.not_tooLarge_iff]
  constructor
  · intro h hlarge
    exact h .tooLarge (Field.real_singleton_eq_error_iff.2 hlarge)
  · intro h e he
    exact h (Field.real_singleton_eq_error_iff.1 he)

theorem succeeds_resourceOf?_iff (v : Value) :
    Succeeds (resourceOf? v) ↔ ∀ r, v = .object r → ResourceInRange r := by
  cases v with
  | object r =>
    rw [resourceOf?, succeeds_bind_iff fun _ => succeeds_bind_pure_iff, succeeds_liftWritten_iff,
      succeeds_liftRange_iff, succeeds_text_iff, succeeds_resourceEntropy_iff]
    simp only [Value.object.injEq, forall_eq']
    exact ⟨fun h => ⟨h.1, h.2⟩, fun h => ⟨h.1, h.2⟩⟩
  | _ => exact iff_of_true (succeeds_ok none) fun _ h => by cases h

theorem succeeds_resourcesOf_iff (v : Value) :
    Succeeds (resourcesOf v) ↔ ∀ x ∈ v.items?.getD [], Succeeds (resourceOf? x) := by
  cases v with
  | list items => exact succeeds_bind_pure_iff.trans succeeds_mapM_iff
  | _ => exact iff_of_true (succeeds_ok none) nofun

/-! ## The optional header -/

/-- The subsystem has a name, or its code can be written. -/
def SubsystemInRange (code : Nat) : Prop :=
  (Image.subsystems.name? code).isSome ∨ Writable code

theorem succeeds_subsystemName_iff (code : Nat) :
    Succeeds (Image.subsystemName code) ↔ SubsystemInRange code := by
  rw [Image.subsystemName, SubsystemInRange]
  cases Image.subsystems.name? code with
  | some name => exact iff_of_true (succeeds_ok name) (.inl rfl)
  | none =>
    simp only [succeeds_map_iff, Number.succeeds_decimal?_iff, Option.isSome_none,
      Bool.false_eq_true, false_or]

theorem succeeds_optionalOf_iff (v : Value) :
    Succeeds (optionalOf v) ↔ SubsystemInRange (subsystemOf v) := by
  rw [optionalOf, ← succeeds_subsystemName_iff]
  exact succeeds_bind_pure_iff.trans succeeds_liftWritten_iff

theorem succeeds_optional_iff (v : Value) :
    Succeeds ((objectOrNone optionalOf v).mapM id) ↔
      ∀ h, v = .object h → SubsystemInRange (subsystemOf (.object h)) := by
  cases v with
  | object h =>
    simp only [Value.object.injEq, forall_eq']
    rw [← succeeds_optionalOf_iff]
    exact succeeds_bind_pure_iff
  | _ => exact iff_of_true (succeeds_ok none) nofun

/-! ## Whole payloads -/

theorem succeeds_assemble_iff (o : Fields) (parts : Parts) (fileSize : Option Int) :
    Succeeds (Analysis.assemble o parts fileSize) ↔
      Succeeds (importsOf (fieldOrNull o "imports")) ∧
      Succeeds (resourcesOf (fieldOrNull o "resources")) ∧
      Succeeds ((objectOrNone optionalOf parts.optional).mapM id) := by
  rw [Analysis.assemble]
  exact succeeds_bind_iff fun _ => succeeds_bind_iff fun _ => succeeds_bind_pure_iff

def headerOf (o : Fields) : Fields := ((o.get? "header").bind Value.fields?).getD []

/-- Every whole number in a payload that is written as a text, and every one that is kept as a
binary value, is small enough for it. -/
structure InRange (o : Fields) : Prop where
  functions : ∀ i, .object i ∈ itemsAt o "imports" → ∀ f ∈ itemsAt i "functions",
    ∀ n ∈ (functionSource f).wholes, Writable n
  resources : ∀ r, .object r ∈ itemsAt o "resources" → ResourceInRange r
  subsystem : ∀ h, fieldOrNull (headerOf o) "optional" = .object h →
    SubsystemInRange (subsystemOf (.object h))

theorem succeeds_ofPayload_iff (o : Fields) (fileSize : Option Int) :
    Succeeds (Analysis.ofPayload o fileSize) ↔ InRange o := by
  rw [ofPayload_eq_assemble, succeeds_assemble_iff, succeeds_importsOf_iff,
    succeeds_resourcesOf_iff, succeeds_optional_iff]
  simp only [succeeds_importOf?_iff, succeeds_resourceOf?_iff]
  constructor
  · rintro ⟨hi, hr, ho⟩
    exact ⟨fun i hmem => hi _ hmem i rfl, fun r hmem => hr _ hmem r rfl, ho⟩
  · rintro ⟨hi, hr, ho⟩
    refine ⟨?_, ?_, ho⟩
    · rintro _ hmem i rfl
      exact hi i hmem
    · rintro _ hmem r rfl
      exact hr r hmem

/-- A payload is normalized exactly when its numbers are small enough and there is room to copy it;
in particular no section and no directory entry, whatever it is, keeps a payload from it by
anything but its brackets. -/
theorem normalize_payload_succeeds_iff (o : Fields) (fileSize : Option Int) (room : Option Nat) :
    (∃ a, normalize (.tagged (.object o) fileSize) room = .ok a) ↔
      InRange o ∧ ∀ calls ∈ room, (Value.object o).copyCalls ≤ calls := by
  have hcopyable : Copyable room (some o) ↔
      ∀ calls ∈ room, (Value.object o).copyCalls ≤ calls := by
    simp only [Copyable, Option.mem_some_iff, forall_eq']
  rw [exists_congr fun _ => normalize_eq_ok_iff, exists_and_left, and_comm, ← hcopyable]
  exact and_congr_left' (succeeds_ofPayload_iff o fileSize)

/-- A payload with one resource, of which only the entropy is known. -/
def entropyPayload (n : Int) : Fields :=
  [("header", .object []), ("sections", .list []),
    ("resources", .list [.object [("entropy", .int n)]])]

theorem resourceOf?_too_large {n : Int} (hn : ¬n.natAbs < Number.overflowBound) :
    resourceOf? (.object [("entropy", .int n)]) = .error .tooLarge := by
  have hlarge : Field.TooLarge (Keyed.get? [("entropy", .int n)] "entropy") :=
    Nat.le_of_not_lt hn
  have hreal : Field.resourceEntropy.resolve (.object [("entropy", .int n)]) = .error .tooLarge :=
    Field.real_singleton_eq_error_iff.2 hlarge
  rw [resourceOf?, hreal]
  rfl

/-- The payload is accepted, and then its entropy stops everything. -/
theorem entropyPayload_lost :
    External.validate (.object (entropyPayload (Nat.pow 10 400))) =
      .ok (entropyPayload (Nat.pow 10 400)) ∧
    normalize (.tagged (.object (entropyPayload (Nat.pow 10 400))) (some 0)) =
      .error .tooLarge := by
  have hlarge : ¬((Nat.pow 10 400 : Nat) : Int).natAbs < Number.overflowBound := by decide +kernel
  generalize ((Nat.pow 10 400 : Nat) : Int) = n at hlarge ⊢
  refine ⟨rfl, ?_⟩
  have hresources : resourcesOf (fieldOrNull (entropyPayload n) "resources") =
      .error .tooLarge := by
    show ([Value.object [("entropy", .int n)]].mapM resourceOf? >>= _) = _
    rw [List.mapM_cons, resourceOf?_too_large hlarge]
    rfl
  rw [normalize, ofPayload_eq_assemble, Analysis.assemble, hresources]
  rfl

end PETriage.Report
