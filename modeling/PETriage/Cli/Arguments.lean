import PETriage.Json.Display
import PETriage.Number.Reading
import PETriage.Number.Literal

/-!
# Arguments of the command line

A sample and some switches, in any order. A switch may be shortened as long as it is the
only one meant, and takes its value after an equals sign or from the next argument; after
two dashes everything is a value.
-/
namespace PETriage.Cli

inductive Switch
  | help
  | json
  | forceFull
  | threshold
  | cacheFolder
  | verbose
  deriving DecidableEq, Repr

namespace Switch

def all : List Switch := [help, json, forceFull, threshold, cacheFolder, verbose]

def names : Switch → List String
  | help => ["-h", "--help"]
  | json => ["--json"]
  | forceFull => ["--force-full"]
  | threshold => ["--large-threshold-mb"]
  | cacheFolder => ["--cache-dir"]
  | verbose => ["-v", "--verbose"]

def takesValue : Switch → Bool
  | threshold => true
  | cacheFolder => true
  | _ => false

/-- Every name of every switch, in order. -/
def table : List (String × Switch) := all.flatMap fun s => s.names.map fun n => (n, s)

def named? (name : String) : Option Switch := (table.find? (·.1 == name)).map (·.2)

end Switch

inductive UsageError
  | ambiguous (argument : String) (names : List String)
  | unwantedValue (switch : Switch) (value : String)
  | missingValue (switch : Switch)
  | noNumber (switch : Switch) (value : String)
  | missingSample
  | unknown (arguments : List String)
  deriving DecidableEq, Repr

def aboutSwitch (s : Switch) (text : String) : String :=
  "argument " ++ "/".intercalate s.names ++ ": " ++ text

def UsageError.message : UsageError → String
  | ambiguous argument names =>
    "ambiguous option: " ++ argument ++ " could match " ++ ", ".intercalate names
  | unwantedValue s value => aboutSwitch s ("ignored explicit argument " ++ Display.quoted value)
  | missingValue s => aboutSwitch s "expected one argument"
  | noNumber s value => aboutSwitch s ("invalid int value: " ++ Display.quoted value)
  | missingSample => "the following arguments are required: sample"
  | unknown arguments => "unrecognized arguments: " ++ " ".intercalate arguments

/-! ## Kinds of argument -/

inductive Token
  | value (text : String)
  | separator
  /-- A switch with the text that comes in the same argument, which may belong to a switch of one
  letter. -/
  | switch (s : Switch) (attached : Bool) (given : Option String)
  | unknown (text : String)
  deriving DecidableEq, Repr

/-- What stands before the first equals sign, and after it. -/
def splitEquals (cs : List Char) : List Char × Option String :=
  match cs.dropWhile (· != '=') with
  | [] => (cs, none)
  | _ :: rest => (cs.takeWhile (· != '='), some (String.ofList rest))

def isDecimalDigit (c : Char) : Bool := (Text.decimalValue? c).isSome

/-- A dash and digits, with at most one point before the last of them; the line may end there. -/
def isNegativeNumber : List Char → Bool
  | '-' :: rest =>
    let rest := if rest.getLast? = some '\n' then rest.dropLast else rest
    match rest.dropWhile isDecimalDigit with
    | [] => !rest.isEmpty
    | '.' :: places => !places.isEmpty && places.all isDecimalDigit
    | _ => false
  | _ => false

/-- The names that an argument may be short for, each with the value in the argument. -/
def candidates (cs : List Char) : List (String × Switch × Option String) :=
  match cs with
  | '-' :: '-' :: _ =>
    let (front, given) := splitEquals cs
    Switch.table.filterMap fun (name, s) =>
      if front.isPrefixOf name.toList then some (name, s, given) else none
  | '-' :: c :: rest =>
    Switch.table.filterMap fun (name, s) =>
      if name.toList == ['-', c] then some (name, s, some (String.ofList rest))
      else if cs.isPrefixOf name.toList then some (name, s, none)
      else none
  | _ => []

def isLongName (name : String) : Bool := ['-', '-'].isPrefixOf name.toList

/-- A switch whose whole name is the argument, or the argument up to an equals sign. -/
def exactly? (text : String) : Option Token :=
  match Switch.named? text with
  | some s => some (.switch s false none)
  | none =>
    let (front, given) := splitEquals text.toList
    let name := String.ofList front
    match given, Switch.named? name with
    | some value, some s => some (.switch s (!isLongName name) (some value))
    | _, _ => none

def tokenOf (text : String) : Except UsageError Token :=
  match text.toList with
  | '-' :: _ :: _ =>
    match exactly? text with
    | some t => .ok t
    | none =>
      match candidates text.toList with
      | [(name, s, given)] => .ok (.switch s (!isLongName name) given)
      | [] =>
        if isNegativeNumber text.toList || text.toList.contains ' ' then .ok (.value text)
        else .ok (.unknown text)
      | several => .error (.ambiguous text (several.map (·.1)))
  | _ => .ok (.value text)

def tokens : List String → Except UsageError (List Token)
  | [] => .ok []
  | text :: rest =>
    if text = "--" then .ok (.separator :: rest.map .value)
    else do
      let t ← tokenOf text
      let others ← tokens rest
      return t :: others

/-! ## Reading the arguments -/

/-- What a switch with a value was given last. Two dashes after its equals sign are taken away
and leave it without one. -/
inductive Operand (α : Type)
  | absent
  | one (a : α)
  | nothing
  deriving DecidableEq, Repr

def Operand.toOption {α : Type} : Operand α → Option α
  | one a => some a
  | _ => none

structure Arguments where
  sample : String
  json : Bool := false
  forceFull : Bool := false
  thresholdMegabytes : Operand Int := .absent
  cacheFolder : Operand String := .absent

/-- What was read so far; arguments that fit nowhere are kept in order. -/
structure Reading where
  sample : Option String := none
  arguments : Arguments := { sample := "" }
  extras : List String := []
  helpAsked : Bool := false

def Reading.switched (r : Reading) : Switch → Reading
  | .help => { r with helpAsked := true }
  | .json => { r with arguments := { r.arguments with json := true } }
  | .forceFull => { r with arguments := { r.arguments with forceFull := true } }
  | _ => r

def threshold? (value : String) : Option (Operand Int) :=
  if value = "--" then some .nothing else (Number.readDecimal? value.toList).map .one

def folder (value : String) : Operand String := if value = "--" then .nothing else .one value

def Reading.valued (r : Reading) (s : Switch) (value : String) : Except UsageError Reading :=
  match s with
  | .threshold =>
    match threshold? value with
    | some n => .ok { r with arguments := { r.arguments with thresholdMegabytes := n } }
    | none => .error (.noNumber s value)
  | _ => .ok { r with arguments := { r.arguments with cacheFolder := folder value } }

/-- Letters that follow a one-letter switch are further switches of that kind. -/
def lettered (s : Switch) : List Char → Except UsageError (List Switch)
  | [] => .ok [s]
  | c :: rest =>
    match Switch.named? (String.ofList ['-', c]) with
    | some next => (lettered next rest).map (s :: ·)
    | none => .error (.unwantedValue s (String.ofList (c :: rest)))

def Reading.add (r : Reading) (text : String) : Reading := { r with extras := r.extras ++ [text] }

/-- A switch that takes no value; a text right after its one letter is read as letters. -/
def Reading.plain (r : Reading) (s : Switch) (attached : Bool) (given : Option String) :
    Except UsageError Reading :=
  match given with
  | none => .ok (r.switched s)
  | some value =>
    if attached && value != "" then
      (lettered s value.toList).map fun switches => switches.foldl Reading.switched r
    else .error (.unwantedValue s value)

/-- Reads the arguments in order; once help is asked for, nothing after it counts. -/
def readTokens (r : Reading) : List Token → Except UsageError Reading
  | [] => .ok r
  | .unknown text :: rest => readTokens (r.add text) rest
  | .separator :: .value text :: rest =>
    if r.sample.isNone then readTokens { r with sample := some text } rest
    else readTokens (r.add "--") (.value text :: rest)
  | .separator :: rest => readTokens (r.add "--") rest
  | .value text :: .separator :: rest =>
    if r.sample.isNone then readTokens { r with sample := some text } rest
    else readTokens (r.add text) (.separator :: rest)
  | .value text :: rest =>
    if r.sample.isNone then readTokens { r with sample := some text } rest
    else readTokens (r.add text) rest
  | .switch s attached none :: .value value :: rest => do
    if s.takesValue then readTokens (← r.valued s value) rest
    else
      let r ← r.plain s attached none
      if r.helpAsked then return r else readTokens r (.value value :: rest)
  | .switch s attached given :: rest => do
    if s.takesValue then
      match given with
      | some value => readTokens (← r.valued s value) rest
      | none => throw (.missingValue s)
    else
      let r ← r.plain s attached given
      if r.helpAsked then return r else readTokens r rest

/-- The arguments, or nothing when only help is asked for. -/
def Arguments.read (args : List String) : Except UsageError (Option Arguments) := do
  let r ← readTokens {} (← tokens args)
  if r.helpAsked then return none
  match r.sample with
  | none => throw .missingSample
  | some sample =>
    if r.extras.isEmpty then return some { r.arguments with sample := sample }
    else throw (.unknown r.extras)

end PETriage.Cli
