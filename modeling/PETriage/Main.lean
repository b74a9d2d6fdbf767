import PETriage.Cli.Run

/-!
# The program

The command on the files of the machine. What the command looks at, the sample and its cache
entry with the folders above them, is taken into a tree; what a run changes is written back.
-/
namespace PETriage.Program

open Files (Path Place Node Tree)

def placeText (p : Place) : String := "/" ++ "/".intercalate p

def nodeAt? (p : Place) : IO (Option Node) := do
  try
    return some (.file (← IO.FS.readBinFile (placeText p)))
  catch
    | .inappropriateType .. => return some .folder
    | _ => return none

/-- Takes what a path leads over into the tree. -/
def take (t : Tree) (path : Path) : IO Tree := do
  let mut t := t
  for p in path.places t.here do
    if p != [] && (t.node? p).isNone then
      match ← nodeAt? p with
      | some n => t := t.put p n
      | none => pure ()
  return t

/-- The cache entry of the sample, and the file that it is written to first. -/
def cachePaths (args : Cli.Arguments) (t : Tree) : List Path :=
  match args.cacheFolder.toOption, t.contents (.ofText args.sample) with
  | some folder, .ok b =>
    let entry := Cache.Disk.entryPath (.ofText folder) (Digest.Sha256.digest b)
    [entry, Cache.Disk.temporaryPath entry]
  | _, _ => []

def takeFor (args : Cli.Arguments) (t : Tree) : IO Tree := do
  let t ← take t (.ofText args.sample)
  (cachePaths args t).foldlM take t

/-- Makes the changes of a run, the cache being no reason to fail: from the first one that the
machine refuses on they are lost. -/
def writeBack (before after : Tree) : IO Unit := do
  try
    for p in before.gone after do
      IO.FS.removeFile (placeText p)
    for i in before.fresh after do
      match i.node with
      | .folder => IO.FS.createDirAll (placeText i.place)
      | .file b => IO.FS.writeBinFile (placeText i.place) b
  catch _ => pure ()

def environment : IO (String → Option String) := do
  let texts ← Config.settingNames.mapM fun name => return (name, ← IO.getEnv name)
  return fun name => (texts.lookup name).join

/-- Prints lines up to the first one that has no bytes, and tells whether there is none. -/
def printLines : List Text → IO Bool
  | [] => return true
  | line :: rest =>
    match line.whole? with
    | some s => do
      IO.println s
      printLines rest
    | none => return false

/-- A line as the error stream shows it, with single units spelled out. -/
def spelledOut (t : Text) : String :=
  t.head ++ String.join (t.tail.map fun (h, s) =>
    String.ofList ('\\' :: 'u' :: Display.padHex 4 h.unit) ++ s)

/-- Shows the report of the sample that the arguments name. -/
def run (args : List String) : IO UInt32 := do
  let here : Tree := { items := [], here := Files.partsOf (← IO.currentDir).toString.toList }
  let here ← take here (.ofText ".")
  let before ← match Cli.Arguments.read args with
    | .ok (some read) => takeFor read here
    | _ => pure here
  let (result, after) := Cli.run Cli.standardRegistry (← environment) args before
  writeBack before after
  match result with
  | .ok shown =>
    if ← printLines shown.output.texts then
      for line in shown.errors do
        IO.eprintln (spelledOut line)
      return shown.exit.toUInt32
    else return 1
  | .error breakdown =>
    IO.eprintln breakdown.message
    return 1

end PETriage.Program

def main (args : List String) : IO UInt32 := PETriage.Program.run args
