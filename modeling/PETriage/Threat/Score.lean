import PETriage.Report.Records
import PETriage.Statistics.Entropy
import PETriage.Text.Case
import PETriage.Text.Search

/-!
# Threat score of an analysis

Each rule that was triggered adds the weight of its severity. Writable and executable
sections of high entropy add a bonus once, and so do imports that malware commonly uses;
the sum is capped and read off a ladder of levels.
-/
namespace PETriage.Threat

open Report (Analysis SectionEntry Import)

/-- A rule that the engine for patterns found in a file. -/
structure RuleHit where
  rule : Text
  severity : Text := "low"

def RuleHit.weight (m : RuleHit) : Nat :=
  match m.severity.whole? with
  | some "high" => 30
  | some "medium" => 15
  | some "low" => 5
  | _ => 0

def RuleHit.line (m : RuleHit) : Text :=
  "Rule \"" ++ m.rule ++ "\" triggered (" ++ m.severity ++ " severity)"

/-- An entropy text that is no number. -/
inductive ThreatError
  | entropyUnreadable (name : Text)
  deriving DecidableEq, Repr

abbrev Judged := Except ThreatError

def entropyOf (s : SectionEntry) : Judged Float :=
  match s.entropyValue? with
  | some x => .ok x
  | none => .error (.entropyUnreadable s.name)

/-- A section that can be written and run and whose bytes look packed; the entropy of any other
is not asked for. -/
def isPackedCode (s : SectionEntry) : Judged Bool :=
  if s.isPlaceholder || !s.isWritableExecutable then .ok false
  else (entropyOf s).map fun x => x > Statistics.highEntropy

def packedCode : List SectionEntry → Judged (List SectionEntry)
  | [] => .ok []
  | s :: rest => do
    let hit ← isPackedCode s
    let others ← packedCode rest
    return if hit then s :: others else others

def importedFunctions (a : Analysis) : List Text :=
  (a.imports.getD []).flatMap (·.functions)

/-- A letter without its case; a long s counts as an s, an i with or without a dot as an i. -/
def foldLetter (c : Char) : Char :=
  if c.toNat == 0x17F then 's'
  else if c.toNat == 0x130 || c.toNat == 0x131 then 'i'
  else c.toLower

def loaderCalls : List String :=
  ["VirtualAlloc", "WriteProcessMemory", "CreateProcess", "WinExec", "ShellExecute", "URLDownload"]

/-- The name holds that of a function which malware commonly calls. -/
def isLoaderCall (name : Text) : Bool :=
  name.pieces.any fun s => loaderCalls.any fun word =>
    Text.occursLike (fun w c => foldLetter w == foldLetter c) word.toList s.toList

def packedCodeBonus : Nat := 20
def importBonus : Nat := 15
def maxScore : Nat := 100

inductive Level
  | low
  | medium
  | high
  | critical
  deriving DecidableEq, Repr

def Level.rank : Level → Nat
  | low => 0
  | medium => 1
  | high => 2
  | critical => 3

def Level.ofScore (score : Nat) : Level :=
  if 75 ≤ score then .critical
  else if 50 ≤ score then .high
  else if 25 ≤ score then .medium
  else .low

theorem Level.rank_ofScore_le {m n : Nat} (h : m ≤ n) :
    (ofScore m).rank ≤ (ofScore n).rank := by
  unfold ofScore
  repeat' split
  all_goals first | omega | decide

def Level.name : Level → String
  | low => "low"
  | medium => "medium"
  | high => "high"
  | critical => "critical"

def Level.summary : Level → String
  | low => "Low risk assessment"
  | medium => "Moderate security concerns found"
  | high => "High security risk detected"
  | critical => "Critical security threat detected"

structure Assessment where
  score : Nat
  details : List Text
  deriving DecidableEq, Repr

def Assessment.level (t : Assessment) : Level := .ofScore t.score

/-- What an analysis adds to the score, and a line for each reason. -/
def structural (a : Analysis) : Judged Assessment := do
  let packed ← packedCode a.sections
  let calls := (importedFunctions a).any isLoaderCall
  return {
    score := (if packed.isEmpty then 0 else packedCodeBonus) + (if calls then importBonus else 0)
    details :=
      (if packed.isEmpty then []
        else [Text.ofString ("Found " ++ Number.decimal packed.length ++
          " section(s) with both EXECUTE and WRITE permissions and high entropy")]) ++
      (if calls then [Text.ofString "Found suspicious imports commonly used by malware"] else []) }

def assess (analysis : Option Analysis) (hits : List RuleHit) : Judged Assessment := do
  let found ← match analysis with
    | none => pure ⟨0, []⟩
    | some a => structural a
  return ⟨min maxScore (hits.foldl (fun n hit => n + hit.weight) found.score),
    hits.map RuleHit.line ++ found.details⟩

end PETriage.Threat
