import PETriage.Json.Display
import PETriage.Proofs.Except

/-!
# Values that can be shown

A value is spelled out unless some whole number inside it has more digits than a text may have.
-/
namespace PETriage

/-- A whole number with no more digits than a text may have. -/
def Number.Writable (n : Int) : Prop := decimalLength n ≤ decimalDigitLimit

theorem Number.succeeds_decimal?_iff (n : Int) : Succeeds (decimal? n) ↔ Writable n := by
  unfold decimal? Writable
  split
  · rename_i h
    exact iff_of_true (succeeds_ok _) h
  · rename_i h
    exact iff_of_false (not_succeeds_error _) h

namespace Value

mutual
/-- The whole numbers in a value, at any depth. -/
def wholes : Value → List Int
  | .int n => [n]
  | .list items => wholesOfItems items
  | .object fields => wholesOfFields fields
  | _ => []
def wholesOfItems : List Value → List Int
  | [] => []
  | v :: rest => wholes v ++ wholesOfItems rest
def wholesOfFields : List (Text × Value) → List Int
  | [] => []
  | (_, v) :: rest => wholes v ++ wholesOfFields rest
end

end Value

namespace Display

open Number (Writable)

mutual
theorem succeeds_spelled_iff : ∀ v : Value, Succeeds (spelled v) ↔ ∀ n ∈ v.wholes, Writable n
  | .null => by simp [spelled, Value.wholes, succeeds_ok]
  | .bool true => by simp [spelled, Value.wholes, succeeds_ok]
  | .bool false => by simp [spelled, Value.wholes, succeeds_ok]
  | .int n => by
    rw [spelled, Number.succeeds_decimal?_iff, Value.wholes, List.forall_mem_singleton]
  | .float x => by simp [spelled, Value.wholes, succeeds_ok]
  | .str s => by simp [spelled, Value.wholes, succeeds_ok]
  | .list items => by
    rw [spelled, succeeds_bind_pure_iff, succeeds_spelledItems_iff items, Value.wholes]
  | .object fields => by
    rw [spelled, succeeds_bind_pure_iff, succeeds_spelledFields_iff fields, Value.wholes]
theorem succeeds_spelledItems_iff : ∀ items : List Value,
    Succeeds (spelledItems items) ↔ ∀ n ∈ Value.wholesOfItems items, Writable n
  | [] => by simp [spelledItems, Value.wholesOfItems, succeeds_ok]
  | v :: rest => by
    rw [spelledItems, succeeds_bind_iff fun _ => succeeds_bind_pure_iff, succeeds_spelled_iff v,
      succeeds_spelledItems_iff rest, Value.wholesOfItems, List.forall_mem_append]
theorem succeeds_spelledFields_iff : ∀ fields : List (Text × Value),
    Succeeds (spelledFields fields) ↔ ∀ n ∈ Value.wholesOfFields fields, Writable n
  | [] => by simp [spelledFields, Value.wholesOfFields, succeeds_ok]
  | (k, v) :: rest => by
    rw [spelledFields, succeeds_bind_iff fun _ => succeeds_bind_pure_iff, succeeds_spelled_iff v,
      succeeds_spelledFields_iff rest, Value.wholesOfFields, List.forall_mem_append]
end

theorem succeeds_shown_iff (v : Value) : Succeeds (shown v) ↔ ∀ n ∈ v.wholes, Writable n := by
  unfold shown
  split
  · exact iff_of_true (succeeds_ok _) nofun
  · rw [succeeds_map_iff, succeeds_spelled_iff]

end Display
end PETriage
