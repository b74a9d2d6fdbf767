import PETriage.Image.Headers
import PETriage.Report.Normalize
import PETriage.Request.Progress
import PETriage.Request.Source

/-!
# What a request does

A request reads its source, asks whether it is still wanted, reports progress, calls an
external analyzer and gives way to others. Each step is written down in a trace; a request
that stops early has a cause.
-/
namespace PETriage.Request

inductive Event
  | polled (wanted : Bool)
  | read (offset length : Int) (got : Nat)
  | gained (done total : Int)
  | progressed (value : Int)
  | analyzed
  | paused
  deriving DecidableEq, Repr

def Event.bytes : Event → Nat
  | .read _ _ got => got
  | _ => 0

inductive Stop
  | cancelled (offset : Int)
  | unread (fault : ReadFault)
  | undecodable (error : Image.HeaderError)
  | unnormalized (error : Report.NormalizeError)
  | broken (reason : String)
  deriving DecidableEq, Repr

def cancelledText (offset : Int) : String := "read stopped at " ++ Number.signedHex offset

def Stop.reason : Stop → String
  | cancelled offset => cancelledText offset
  | unread fault => fault.message
  | undecodable error => error.message
  | unnormalized error => error.message
  | broken reason => reason

/-- A cancelled request, damaged headers, and any other failure are told apart. -/
def Stop.message (s : Stop) : String :=
  match s with
  | cancelled _ => "Analysis cancelled: " ++ s.reason
  | undecodable error =>
    (if error.isNotImage then "Analysis failed: " else "Malformed PE header: ") ++ s.reason
  | _ => "Analysis failed: " ++ s.reason

/-- What surrounds a request: its source, who may lose interest in it, and who listens to its
progress. Polls and reports are numbered; a listener may fail at any of them. -/
structure Surroundings where
  source : Source
  wanted : Option (Nat → Bool) := none
  listener : Option (Nat → Int → Except String Unit) := none

structure Trace where
  progress : Progress := {}
  polls : Nat := 0
  reads : Nat := 0
  reports : Nat := 0
  /-- The latest event first. -/
  log : List Event := []

namespace Trace

def add (t : Trace) (e : Event) : Trace := { t with log := e :: t.log }

/-- The values that the listener was given, in order. -/
def heard (t : Trace) : List Int :=
  (t.log.filterMap fun
    | .progressed v => some v
    | _ => none).reverse

def bytesRead (t : Trace) : Nat :=
  t.log.foldl (fun n e => n + e.bytes) 0

def pauses (t : Trace) : Nat := t.log.count .paused
def analyzerCalls (t : Trace) : Nat := t.log.count .analyzed

end Trace

abbrev Step := ExceptT Stop (StateM Trace)

namespace Step

def note (e : Event) : Step Unit := modify (·.add e)

/-- What became of a step, without stopping at its failure. -/
def attempt {α : Type} (step : Step α) : Step (Except Stop α) := fun t =>
  let (r, t) := step.run t
  (.ok r, t)

def ofExcept {ε α : Type} (cause : ε → Stop) : Except ε α → Step α
  | .ok a => pure a
  | .error e => throw (cause e)

end Step

/-- Reports progress; a listener that fails disturbs nothing. -/
def emit (w : Surroundings) (value : Int) : Step Unit := do
  let t ← get
  let progress := t.progress.raised value
  set { t with progress := progress }
  match w.listener with
  | none => return
  | some listener =>
    Step.note (.progressed progress.value)
    modify fun t => { t with reports := t.reports + 1 }
    match listener t.reports progress.value with
    | .ok () => return
    | .error _ => return

def checkWanted (w : Surroundings) (offset : Int) : Step Unit := do
  match w.wanted with
  | none => return
  | some wanted =>
    let t ← get
    let answer := wanted t.polls
    set { t with polls := t.polls + 1 }
    Step.note (.polled answer)
    if answer then return else throw (.cancelled offset)

def readAt (w : Surroundings) (offset length : Int) : Step ByteArray := do
  let t ← get
  set { t with reads := t.reads + 1 }
  match w.source.read t.reads offset length with
  | .ok b =>
    Step.note (.read offset length b.size)
    return b
  | .error fault =>
    Step.note (.read offset length 0)
    throw (.unread fault)

def pause : Step Unit := Step.note .paused

def pauses : Nat → Step Unit
  | 0 => return
  | n + 1 => do
    pause
    pauses n

end PETriage.Request
