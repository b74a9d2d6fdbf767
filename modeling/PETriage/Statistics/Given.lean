import PETriage.Json.Misfit
import PETriage.Statistics.Sample

/-!
# Statistics of values of any kind

The limits of a sample as values: fractions and truth values count as numbers, and a limit
that is no number, or no whole number where a window has to end, gives a reason instead of
a measure. Labels and texts of statistics that may be of another kind than theirs.
-/
namespace PETriage.Statistics

/-- The windows by which a span of this length is represented, unless they cover it. -/
def windowFor (length : Nat) (size : Value) : Except String (Option Int) := do
  if ← Value.holds .atMost (.nat length) (← size.tripled) then return none
  else return some (← size.windowBound)

def sampleGiven (b : ByteArray) : Value → Except String ByteArray
  | .int n => .ok (sample b n)
  | size => (windowFor b.size size).map fun window => window.elim b (sample b ·)

/-- The windows that a span is judged by, unless it is judged as a whole. -/
def judgedWindow (length : Nat) (threshold size : Value) : Except String (Option Int) := do
  let bound ← threshold.lesser (← size.tripled)
  if ← Value.holds .greater (.nat length) bound then windowFor length size else return none

/-- The measure of a span under a threshold and a sample size. -/
def measureGiven (b : ByteArray) (whole : Bool) : Value → Value → Except String Measure
  | .int threshold, .int size => .ok (measure b whole ⟨threshold, size⟩)
  | threshold, size =>
    if whole then .ok (measure b true {})
    else (judgedWindow b.size threshold size).map fun window =>
      window.elim (measure b true {}) fun n => measure b false ⟨n, n⟩

/-- The label of a number; what has no order among numbers has none. -/
def labelGiven : Value → Except Misfit String
  | .float x => .ok (entropyLabel x)
  | v =>
    match v.whole? with
    | some n => .ok (if n > 7 then "Encrypted" else if n == 7 then "Packed"
        else if n == 6 then "Compressed" else "Normal")
    | none => .error .kind

end PETriage.Statistics
