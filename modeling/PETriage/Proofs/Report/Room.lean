import PETriage.Proofs.Except
import PETriage.Report.Normalize

/-!
# Room for the copy of a payload

Every shape of result comes with at most one payload to copy, and whether there is room for that
copy is all that the room decides: where there is, the analysis is the one that is made without a
limit, and where there is not, nothing is normalized. The analysis keeps the payload that was
copied.
-/
namespace PETriage.Report

variable {raw : Raw} {room : Option Nat} {payload : Option Fields} {a : Analysis}

/-- The payload that goes with a result. -/
def Raw.payload? : Raw → Option Fields
  | .tagged (.object o) _ => some o
  | .value (.object o) =>
    if isPayload o then some o else (Keyed.get? o "raw_payload").bind Value.fields?
  | .analysis a => a.payload
  | _ => none

/-- A payload, if there is one, can be copied by as many calls inside one another. -/
def Copyable (room : Option Nat) (payload : Option Fields) : Prop :=
  ∀ calls ∈ room, ∀ o ∈ payload, (Value.object o).copyCalls ≤ calls

theorem copyable_none (payload : Option Fields) : Copyable none payload := nofun

theorem copied_of_copyable (h : Copyable room payload) : copied payload room = .ok payload := by
  cases room with
  | none => rfl
  | some calls =>
    have hall : payload.all (fun o => (Value.object o).copyCalls ≤ calls) = true := by
      simpa [Option.all_eq_true] using h calls rfl
    rw [copied, if_pos hall]

theorem copied_of_not_copyable (h : ¬Copyable room payload) :
    copied payload room = .error .tooDeep := by
  cases room with
  | none => exact absurd (copyable_none payload) h
  | some calls =>
    rw [copied, if_neg]
    intro hall
    refine h fun n hn => ?_
    cases hn
    simpa [Option.all_eq_true] using hall

/-! ## One shape after the other -/

theorem ofPayload_of_copyable {o : Fields} {fileSize : Option Int} (h : Copyable room (some o)) :
    Analysis.ofPayload o fileSize room = Analysis.ofPayload o fileSize := by
  rw [Analysis.ofPayload, copied_of_copyable h]
  rfl

theorem ofPayload_of_not_copyable {o : Fields} {fileSize : Option Int}
    (h : ¬Copyable room (some o)) : Analysis.ofPayload o fileSize room = .error .tooDeep := by
  rw [Analysis.ofPayload, copied_of_not_copyable h]
  rfl

theorem ofValue_of_copyable {o : Fields} (h : Copyable room (Raw.value (.object o)).payload?) :
    Analysis.ofValue (.object o) room = Analysis.ofValue (.object o) := by
  rw [Raw.payload?] at h
  simp only [Analysis.ofValue]
  split
  · rename_i hp
    rw [if_pos hp] at h
    exact ofPayload_of_copyable h
  · rename_i hp
    rw [if_neg hp] at h
    rw [Analysis.ofPrinted, copied_of_copyable h]
    rfl

theorem ofValue_of_not_copyable {o : Fields}
    (h : ¬Copyable room (Raw.value (.object o)).payload?) :
    Analysis.ofValue (.object o) room = .error .tooDeep := by
  rw [Raw.payload?] at h
  simp only [Analysis.ofValue]
  split
  · rename_i hp
    rw [if_pos hp] at h
    exact ofPayload_of_not_copyable h
  · rename_i hp
    rw [if_neg hp] at h
    rw [Analysis.ofPrinted, copied_of_not_copyable h]
    rfl

/-! ## Every shape -/

/-- With enough room for its payload a result is normalized as without a limit. -/
theorem normalize_of_copyable (h : Copyable room raw.payload?) :
    normalize raw room = normalize raw := by
  cases raw with
  | direct r => rfl
  | tagged v fileSize =>
    cases v with
    | object o => exact ofPayload_of_copyable h
    | _ => rfl
  | value v =>
    cases v with
    | object o => exact ofValue_of_copyable h
    | _ => rfl
  | analysis a =>
    have hcopied : copied a.payload room = .ok a.payload := copied_of_copyable h
    rw [normalize, hcopied]
    rfl

theorem normalize_of_not_copyable (h : ¬Copyable room raw.payload?) :
    normalize raw room = .error .tooDeep := by
  cases raw with
  | direct r => exact absurd (fun _ _ => nofun) h
  | tagged v fileSize =>
    cases v with
    | object o => exact ofPayload_of_not_copyable h
    | _ => exact absurd (fun _ _ => nofun) h
  | value v =>
    cases v with
    | object o => exact ofValue_of_not_copyable h
    | _ => exact absurd (fun _ _ => nofun) h
  | analysis a =>
    have hcopied : copied a.payload room = .error .tooDeep := copied_of_not_copyable h
    rw [normalize, hcopied]
    rfl

theorem normalize_eq_ok_iff :
    normalize raw room = .ok a ↔ Copyable room raw.payload? ∧ normalize raw = .ok a := by
  by_cases h : Copyable room raw.payload?
  · rw [normalize_of_copyable h, and_iff_right h]
  · rw [normalize_of_not_copyable h]
    exact iff_of_false nofun fun hn => h hn.1

theorem ofPayload_eq_ok_iff {o : Fields} {fileSize : Option Int} :
    Analysis.ofPayload o fileSize room = .ok a ↔
      Copyable room (some o) ∧ Analysis.ofPayload o fileSize = .ok a :=
  @normalize_eq_ok_iff (.tagged (.object o) fileSize) room a

theorem ofValue_eq_ok_iff {o : Fields} : Analysis.ofValue (.object o) room = .ok a ↔
    Copyable room (Raw.value (.object o)).payload? ∧ Analysis.ofValue (.object o) = .ok a :=
  @normalize_eq_ok_iff (.value (.object o)) room a

theorem payload_of_assemble {o : Fields} {parts : Parts} {fileSize : Option Int}
    (h : Analysis.assemble o parts fileSize = .ok a) : a.payload = parts.payload := by
  simp only [Analysis.assemble, bind_eq_ok_iff] at h
  obtain ⟨imports, -, resources, -, optional, -, h⟩ := h
  cases h
  rfl

/-- What was copied is what the analysis keeps. -/
theorem payload_of_normalize (h : normalize raw = .ok a) : a.payload = raw.payload? := by
  cases raw with
  | direct r =>
    cases h
    rfl
  | tagged v fileSize =>
    cases v with
    | object o => exact payload_of_assemble h
    | _ => cases h
  | value v =>
    cases v with
    | object o =>
      simp only [normalize, Analysis.ofValue, Raw.payload?] at h ⊢
      split at h
      · rename_i hp
        rw [if_pos hp]
        exact payload_of_assemble h
      · rename_i hp
        rw [if_neg hp]
        exact payload_of_assemble h
    | _ => cases h
  | analysis b =>
    cases h
    rfl

end PETriage.Report
