import PETriage.Config
import PETriage.Request.Trace

/-!
# External analyzers

An analyzer outside the direct parser gets the bytes of a file and gives a payload, or
fails in one of several ways. A payload is taken only when it has a header and sections.
-/
namespace PETriage.External

open Request (Step)

inductive Outcome
  | payload (v : Value)
  | raised (reason : String)
  | refused (reason : String)
  | timedOut

structure Analyzer where
  name : String
  available : Bool := true
  analyze : ByteArray → Outcome

inductive Failure
  | unavailable (name : String)
  | timedOut (name : String) (limit : Seconds)
  | raised (name reason : String)
  | refused (reason : String)
  | noObject (kind : String)
  | noHeader
  | noSections

def analyzerText (name : String) : String := "external analyzer '" ++ name ++ "' "

def Failure.message : Failure → String
  | unavailable name => analyzerText name ++ "is not available"
  | timedOut name limit => analyzerText name ++ "timed out after " ++ limit.text ++ "s"
  | raised name reason => analyzerText name ++ "failed: " ++ reason
  | refused reason => reason
  | noObject kind => "expected a JSON object, got " ++ kind
  | noHeader => "payload has no 'header' object"
  | noSections => "payload has no 'sections' list"

/-- The fields of a payload that has a header and a list of sections. -/
def validate : Value → Except Failure Fields
  | .object o =>
    match Keyed.get? o "header", Keyed.get? o "sections" with
    | some (.object _), some (.list _) => .ok o
    | some (.object _), _ => .error .noSections
    | _, _ => .error .noHeader
  | v => .error (.noObject v.kind)

/-- Calls an analyzer; with no time left it is not called at all, and the waiting that is taken
back gives way three times. -/
def Analyzer.run (a : Analyzer) (b : ByteArray) (limit : Seconds) :
    Step (Except Failure Fields) := do
  if !a.available then return .error (.unavailable a.name)
  else if let some reason := limit.fault? then return .error (.raised a.name reason)
  else if limit.expired then
    Request.pauses 3
    return .error (.timedOut a.name limit)
  else
    Step.note .analyzed
    Request.pause
    match a.analyze b with
    | .payload v => return validate v
    | .raised reason => return .error (.raised a.name reason)
    | .refused reason => return .error (.refused reason)
    | .timedOut => return .error (.timedOut a.name limit)

end PETriage.External
