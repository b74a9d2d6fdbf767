import PETriage.Request.Analyze

/-!
# Requests side by side

Concurrent requests give way to one another at each pause. All of them have looked into the
cache before the first pause of any is over; they end, and store, in the order of the
number of their pauses, equal numbers in the order in which they were asked.
-/
namespace PETriage.Request

structure Waiting where
  place : Nat
  ask : Ask
  prepared : Prepared

def prepareAll {σ : Type} (setup : Setup σ) : Nat → List Ask → σ → List Waiting × σ
  | _, [], store => ([], store)
  | place, ask :: rest, store =>
    let (p, store) := prepare setup ask store
    let (others, store) := prepareAll setup (place + 1) rest store
    (⟨place, ask, p⟩ :: others, store)

def settleAll {σ : Type} (setup : Setup σ) : List Waiting → σ → List (Nat × Outcome) × σ
  | [], store => ([], store)
  | w :: rest, store =>
    let (outcome, store) := settle setup w.ask w.prepared store
    let (others, store) := settleAll setup rest store
    ((w.place, outcome) :: others, store)

def inOrderOfEnd (waiting : List Waiting) : List Waiting :=
  waiting.mergeSort fun a b => a.prepared.trace.pauses ≤ b.prepared.trace.pauses

/-- The outcomes of requests that run side by side, in the order in which they were asked. -/
def analyzeAll {σ : Type} (setup : Setup σ) (asks : List Ask) (store : σ) : List Outcome × σ :=
  let (waiting, store) := prepareAll setup 0 asks store
  let (outcomes, store) := settleAll setup (inOrderOfEnd waiting) store
  ((outcomes.mergeSort fun a b => a.1 ≤ b.1).map (·.2), store)

end PETriage.Request
