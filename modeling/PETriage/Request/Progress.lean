import PETriage.Json.Arithmetic
import PETriage.Number.Rounded
import PETriage.Number.Reading

/-!
# Progress of a request

Reported values never fall and stay between nothing and a hundred. A span maps the part of
a read that is done onto a stretch of them.
-/
namespace PETriage.Request

structure Progress where
  value : Int := 0
  deriving DecidableEq, Repr

namespace Progress

def raised (p : Progress) (value : Int) : Progress := ⟨max p.value (min 100 value)⟩

theorem le_raised (p : Progress) (value : Int) : p.value ≤ (p.raised value).value :=
  Int.le_max_left ..

theorem raised_le (p : Progress) (value : Int) (h : p.value ≤ 100) :
    (p.raised value).value ≤ 100 := by
  simp only [raised]
  omega

end Progress

/-- Where in a stretch of values a read stands. -/
def spanValue (start stop done total : Int) : Int := start + (stop - start) * done / max total 1

/-- Where a read stands whose numbers are values of any kind. -/
def spanGiven (start stop done total : Value) : Except Misfit Value := do
  let gained ← (← stop.minus start).times done
  start.plus (← gained.floorOver (← total.atLeastOne))

theorem spanGiven_int (start stop done total : Int) :
    spanGiven (.int start) (.int stop) (.int done) (.int total) =
      .ok (.int (spanValue start stop done total)) := by
  simp only [spanGiven, Value.minus, Value.times, Value.floorOver, Value.plus,
    Value.combined_int, Value.atLeastOne_int]
  rfl

inductive NotWhole
  | noNumber
  | unreadable
  | infinite
  deriving DecidableEq, Repr

/-- The whole number of a value: fractions are cut off, and a text is read as decimal. -/
def wholeOf : Value → Except NotWhole Int
  | .int n => .ok n
  | .bool b => .ok (if b then 1 else 0)
  | .float x =>
    match Number.parts x with
    | .nan => .error .unreadable
    | .infinite _ => .error .infinite
    | .finite negative d =>
      let magnitude : Int := d.floor
      .ok (if negative then -magnitude else magnitude)
  | .str t =>
    match t.whole?.bind fun s => Number.readDecimal? s.toList with
    | some n => .ok n
    | none => .error .unreadable
  | _ => .error .noNumber

end PETriage.Request
