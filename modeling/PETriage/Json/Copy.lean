import PETriage.Json.Value

/-!
# Copies of values

A value is copied by calls inside one another: two for each bracket that is open and two for
what stands inside. An empty bracket takes one more than its own two, by which it is remembered.
-/
namespace PETriage.Value

mutual
/-- How many calls are open at once while a value is copied. -/
def copyCalls : Value → Nat
  | list items => 2 + max 1 (itemsCopyCalls items)
  | object fields => 2 + max 1 (fieldsCopyCalls fields)
  | _ => 2
def itemsCopyCalls : List Value → Nat
  | [] => 0
  | v :: rest => max v.copyCalls (itemsCopyCalls rest)
def fieldsCopyCalls : List (Text × Value) → Nat
  | [] => 0
  | (_, v) :: rest => max v.copyCalls (fieldsCopyCalls rest)
end

end PETriage.Value
