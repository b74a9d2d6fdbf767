import PETriage.Json.Value
import PETriage.Number.Shortest
import PETriage.Number.Written
import PETriage.Text.Halves

/-!
# Values printed as JSON text

The text holds printable ASCII only: other characters are escaped as one or two 16-bit
units. `compact` has no blanks; `indented` puts each item on a line of its own, two
blanks deeper than the bracket around it.
-/
namespace PETriage.Json

def unitEscape (n : Nat) : List Char :=
  '\\' :: 'u' :: (Nat.toDigits 16 n).leftpad 4 '0'

def escapeChar (c : Char) : List Char :=
  if c == '"' then ['\\', '"']
  else if c == '\\' then ['\\', '\\']
  else if c == '\n' then ['\\', 'n']
  else if c == '\r' then ['\\', 'r']
  else if c == '\t' then ['\\', 't']
  else if c.toNat == 12 then ['\\', 'f']
  else if c.toNat == 8 then ['\\', 'b']
  else if 32 ≤ c.toNat && c.toNat < 127 then [c]
  else if c.toNat < 65536 then unitEscape c.toNat
  else
    let (high, low) := Text.halves c
    unitEscape high ++ unitEscape low

def escapePiece (s : String) : List Char := s.toList.flatMap escapeChar

def quoted (t : Text) : List Char :=
  '"' :: (escapePiece t.head ++
    t.tail.flatMap (fun (h, s) => unitEscape h.unit ++ escapePiece s) ++ ['"'])

def floatText (x : Float) : List Char :=
  match Number.parts x with
  | .nan => ['N', 'a', 'N']
  | .infinite negative => ((if negative then "-Infinity" else "Infinity") : String).toList
  | .finite .. => (Number.shortest x).toList

/-- Where lines break: nowhere, or after so many blanks for each open bracket. -/
inductive Layout
  | compact
  | indented (step : Nat)

/-- What stands before an item at some depth. -/
def Layout.before : Layout → Nat → List Char
  | compact, _ => []
  | indented step, depth => '\n' :: List.replicate (step * depth) ' '

def Layout.colon : Layout → List Char
  | compact => [':']
  | indented _ => [':', ' ']

mutual
def print (layout : Layout) (depth : Nat) : Value → List Char
  | .null => ['n', 'u', 'l', 'l']
  | .bool true => ['t', 'r', 'u', 'e']
  | .bool false => ['f', 'a', 'l', 's', 'e']
  | .int n => (Number.decimal n).toList
  | .float x => floatText x
  | .str s => quoted s
  | .list [] => ['[', ']']
  | .list (v :: rest) =>
    '[' :: (layout.before (depth + 1) ++ print layout (depth + 1) v ++
      printItems layout (depth + 1) rest ++ layout.before depth ++ [']'])
  | .object [] => ['\x7b', '\x7d']
  | .object ((k, v) :: rest) =>
    '\x7b' :: (layout.before (depth + 1) ++ quoted k ++ layout.colon ++
      print layout (depth + 1) v ++ printFields layout (depth + 1) rest ++ layout.before depth ++
      ['\x7d'])
def printItems (layout : Layout) (depth : Nat) : List Value → List Char
  | [] => []
  | v :: rest =>
    ',' :: (layout.before depth ++ print layout depth v ++ printItems layout depth rest)
def printFields (layout : Layout) (depth : Nat) : List (Text × Value) → List Char
  | [] => []
  | (k, v) :: rest =>
    ',' :: (layout.before depth ++ quoted k ++ layout.colon ++ print layout depth v ++
      printFields layout depth rest)
end

def compact (v : Value) : String := String.ofList (print .compact 0 v)
def indented (v : Value) : String := String.ofList (print (.indented 2) 0 v)

mutual
/-- No whole number in the value has too many digits for a text. -/
def isWritable : Value → Bool
  | .int n => Number.decimalLength n ≤ Number.decimalDigitLimit
  | .list items => areWritable items
  | .object fields => fieldsWritable fields
  | _ => true
def areWritable : List Value → Bool
  | [] => true
  | v :: rest => isWritable v && areWritable rest
def fieldsWritable : List (Text × Value) → Bool
  | [] => true
  | (_, v) :: rest => isWritable v && fieldsWritable rest
end

def compact? (v : Value) : Except Number.WrittenError String :=
  if isWritable v then .ok (compact v) else .error .tooManyDigits

end PETriage.Json
