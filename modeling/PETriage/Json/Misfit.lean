import PETriage.Bytes
import PETriage.Json.Compare

/-!
# Values of a kind that was not asked for

How a value fails to be a code, a set of flags, a time or a statistic.
-/
namespace PETriage

inductive Misfit
  | kind
  | form
  | size
  | noText
  deriving DecidableEq, Repr

namespace Value

/-- A whole number that can be written in hexadecimal; numbers with fractions and texts have
another form. -/
def code : Value → Except Misfit Int
  | int n => .ok n
  | bool b => .ok (if b then 1 else 0)
  | float _ | str _ => .error .form
  | _ => .error .kind

/-- A whole number that holds single bits. -/
def bits (v : Value) : Except Misfit Int :=
  match v.whole? with
  | some n => .ok n
  | none => .error .kind

def real : Value → Except Misfit Float
  | float x => .ok x
  | str _ => .error .form
  | v =>
    match v.whole? with
    | some n => (Number.ofInteger? n).elim (.error .size) .ok
    | none => .error .kind

def text : Value → Except Misfit Text
  | str t => .ok t
  | _ => .error .kind

/-- Lists and objects are no keys of a table. -/
def isKey : Value → Bool
  | list _ | object _ => false
  | _ => true

def bytes (v : Value) : Except Misfit ByteArray := do
  match (← v.text).whole?.bind Bytes.ofHex? with
  | some b => .ok b
  | none => .error .form

end Value
end PETriage
