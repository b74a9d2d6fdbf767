import PETriage.Json.Compare
import PETriage.Number.Shortest
import PETriage.Number.Written

/-!
# Time limits

A time limit is a number of seconds, or none. One that is given as something else, or is too
long to be measured, cannot be kept.
-/
namespace PETriage

inductive Seconds
  | whole (n : Int)
  | real (x : Float)
  | unlimited
  | other (v : Value)

namespace Seconds

def ofValue : Value → Seconds
  | .int n => whole n
  | .float x => real x
  | .null => unlimited
  | v => other v

def toValue : Seconds → Value
  | whole n => .int n
  | real x => .float x
  | unlimited => .null
  | other v => v

/-- The limit has passed before anything starts. -/
def expired : Seconds → Bool
  | whole n => n ≤ 0
  | real x => x ≤ 0.0
  | unlimited => false
  | other v => (v.holds .atMost (.int 0)).toOption.getD false

/-- Why the limit cannot be kept. -/
def fault? : Seconds → Option String
  | whole n =>
    if n ≤ 0 ∨ (Number.ofInteger? n).isSome then none
    else some "int too large to convert to float"
  | real _ => none
  | unlimited => none
  | other v =>
    match v.holds .atMost (.int 0) with
    | .ok _ => none
    | .error reason => some reason

def text : Seconds → String
  | whole n => Number.decimal n
  | real x => Number.shortest x
  | unlimited => "None"
  | other (.bool b) => if b then "True" else "False"
  | other v => v.kind

end Seconds
end PETriage
