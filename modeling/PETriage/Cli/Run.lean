import PETriage.Cache.Disk
import PETriage.Cli.Arguments
import PETriage.Cli.Print
import PETriage.External.Registry
import PETriage.Loader.Payload
import PETriage.Request.Analyze

/-!
# The command

Analyzes one file out of a tree of files, with the settings of an environment, and shows the
report as text or as JSON. A cache folder may be part of the tree.
-/
namespace PETriage.Cli

open Files (Path Tree)
open External (Registry)
open Request (Ask Setup Source ScanReport)

inductive Output
  | lines (texts : List Text)
  | json (v : Value)

def Output.texts : Output → List Text
  | lines texts => texts
  | json v => [Json.indented v]

structure Shown where
  exit : Nat
  output : Output := .lines []
  errors : List Text := []

def usage : String :=
  "usage: peinspect [-h] [--json] [--force-full] [--large-threshold-mb LARGE_THRESHOLD_MB] " ++
    "[--cache-dir CACHE_DIR] [-v] sample"

def usageFailed (e : UsageError) : Shown where
  exit := 2
  errors := [usage, "peinspect: error: " ++ e.message]

def refused (text : String) : Shown where
  exit := 1
  errors := ["Error: " ++ text]

def configured (env : String → Option String) (args : Arguments) : Except ConfigError Config := do
  let config ← Config.ofEnvironment env
  match args.thresholdMegabytes with
  | .absent => return config
  | .one n => config.withSettings [("large_file_threshold", .int (n * megabyte))]
  | .nothing => config.withSettings [("large_file_threshold", .list [])]

def shown (args : Arguments) (r : ScanReport) : Shown where
  exit := if r.strategy = .failed then 1 else 0
  output := if args.json then .json (reportValue r) else .lines (reportLines r)
  errors := if args.json then [] else noteLines r

/-- The request for a file's analysis; with a cache its key is the file's digest. -/
def askFor (folder : Option String) (args : Arguments) (name : String) (b : ByteArray) : Ask where
  around := { source := Source.ofFile b name }
  forceFull := args.forceFull
  key := folder.map fun _ => Digest.Sha256.digest b

def setupFor (registry : Registry) (config : Config) (folder : Option String) : Setup Tree where
  config := config
  external := registry.get? config.externalAnalyzer
  cache := folder.map fun folder => Cache.Disk.cache (.ofText folder)

/-- Why the command breaks down with nothing to show. -/
inductive Breakdown
  | nameTooLong (sample : String)
  | noCacheFolder
  deriving DecidableEq, Repr

def Breakdown.message : Breakdown → String
  | nameTooLong sample => "File name too long: " ++ Display.quoted sample
  | noCacheFolder => "expected str, bytes or os.PathLike object, not list"

/-- Analyzes a sample under settings that are in order. -/
def analyzeWith (registry : Registry) (config : Config) (args : Arguments) (name : String)
    (b : ByteArray) (t : Tree) : Except Breakdown Shown × Tree :=
  if args.cacheFolder = .nothing then (.error .noCacheFolder, t)
  else
    let folder := args.cacheFolder.toOption
    let (outcome, t) :=
      Request.analyze (setupFor registry config folder) (askFor folder args name b) t
    (.ok (shown args outcome.report), t)

def analyzeFile (registry : Registry) (env : String → Option String) (args : Arguments)
    (t : Tree) : Except Breakdown Shown × Tree :=
  let sample := Path.ofText args.sample
  match t.hasFile sample, t.contents sample with
  | .error _, _ => (.error (.nameTooLong sample.text), t)
  | .ok true, .ok b =>
    match configured env args with
    | .error e => (.ok (refused ("invalid configuration: " ++ e.message)), t)
    | .ok config => analyzeWith registry config args sample.name b t
  | _, _ => (.ok (refused ("sample not found: " ++ sample.text)), t)

def run (registry : Registry) (env : String → Option String) (args : List String) (t : Tree) :
    Except Breakdown Shown × Tree :=
  match Arguments.read args with
  | .error e => (.ok (usageFailed e), t)
  | .ok none => (.ok { exit := 0, output := .lines [usage] }, t)
  | .ok (some args) => analyzeFile registry env args t

/-- The analyzers that there are from the start. -/
def standardRegistry : Registry := [Loader.analyzer true]

end PETriage.Cli
