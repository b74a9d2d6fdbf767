import PETriage.Image.Timestamp
import PETriage.Json.Display
import PETriage.Json.Misfit

/-!
# Codes and times given as values of any kind

The names of codes, the flags of a set and the date of a link time when the code, the set or
the time is a value of any kind.
-/
namespace PETriage.Image

/-- The part of a value before the point, and the rest of it. -/
def splitReal (x : Float) : Float × Float :=
  let whole := if x < 0.0 then x.ceil else x.floor
  (whole, x - whole)

/-- A value to the nearest whole number, a half to the even one. -/
def nearestWhole (x : Float) : Int :=
  match Number.parts x with
  | .finite negative d =>
    let n : Int := Number.roundedQuotient d.ratio.1 d.ratio.2
    if negative then -n else n
  | _ => 0

/-- The second that a time falls in once it is rounded to millionths. -/
def secondOf (x : Float) : Option Int := do
  let (whole, rest) := splitReal x
  let seconds ← Number.wholeValue? whole
  let millionths := nearestWhole (rest * 1000000.0)
  return if 1000000 ≤ millionths then seconds + 1
    else if millionths < 0 then seconds - 1 else seconds

/-- A time that counts for nothing is unknown, whatever its kind. -/
def timestampGiven (v : Value) : Except Misfit String :=
  if !v.counts then .ok unknown
  else match v with
    | .float x =>
      match secondOf x with
      | some 0 => .ok (DateTime.ofSeconds epoch).text
      | some n => .ok (timestampText n)
      | none => .ok unknown
    | v => v.bits.map timestampText

def machineGiven (v : Value) : Except Misfit String := v.code.map machineName
def magicGiven (v : Value) : Except Misfit String := v.code.map magicName

/-- A subsystem without a name is shown as the value that was given. -/
def subsystemGiven (v : Value) : Except Misfit Text := do
  let shown ← (Display.shown v).mapError fun _ => .form
  if !v.isKey then throw .kind
  let named := match v with
    | .float x => (Number.wholeValue? x).bind subsystems.name?
    | v => v.whole?.bind subsystems.name?
  return match named with
    | some name => name
    | none => unknown ++ " (" ++ shown ++ ")"

/-- The code of a name; what is no text names nothing. -/
def codeGiven (table : Codes) (v : Value) : Except Misfit (Option Nat) :=
  if v.isKey then .ok ((v.text?.bind Text.whole?).bind table.code?) else .error .kind

def flagsGiven (table : Flags) (v : Value) : Except Misfit (List String) :=
  v.bits.map table.decode

end PETriage.Image
