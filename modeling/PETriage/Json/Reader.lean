import PETriage.Json.Value
import PETriage.Number.Reading
import PETriage.Text.Halves

/-!
# JSON text read as values

A text is one value with blanks around it. `NaN` and the infinities are read besides the
standard forms; controls may not stand in a string; of two fields with one name the later
value is kept in the earlier place. There may be limits on the digits of a whole number and
on the brackets that are open at once.
-/
namespace PETriage.Json

inductive ReadError
  | malformed
  | tooManyDigits
  | tooDeep
  deriving DecidableEq, Repr

/-- How many digits a whole number and how many brackets inside one another a text may have. -/
structure Limits where
  digits : Option Nat := none
  depth : Option Nat := none

def Limits.inner (l : Limits) : Except ReadError Limits :=
  match l.depth with
  | none => .ok l
  | some 0 => .error .tooDeep
  | some (n + 1) => .ok { l with depth := some n }

def isJsonBlank (c : Char) : Bool := c == ' ' || c == '\t' || c == '\n' || c == '\r'

def skipBlanks (cs : List Char) : List Char := cs.dropWhile isJsonBlank

def unit? : List Char → Option (Nat × List Char)
  | a :: b :: c :: d :: rest => do
    let w ← hexDigitValue? a
    let x ← hexDigitValue? b
    let y ← hexDigitValue? c
    let z ← hexDigitValue? d
    return (((w * 16 + x) * 16 + y) * 16 + z, rest)
  | _ => none

/-- The character of one unit, or of two that pair up; a half stays alone otherwise. -/
def escapedPoint? (cs : List Char) : Option (Text.Point × List Char) := do
  let (n, rest) ← unit? cs
  if Text.isHighUnit n then
    match rest with
    | '\\' :: 'u' :: more =>
      match unit? more with
      | some (m, rest2) =>
        if Text.isLowUnit m then return (.char (Text.joined n m), rest2)
        else return (Text.pointOfUnit n, rest)
      | none => return (Text.pointOfUnit n, rest)
    | _ => return (Text.pointOfUnit n, rest)
  else return (Text.pointOfUnit n, rest)

def simpleEscape? : Char → Option Char
  | '"' => some '"'
  | '\\' => some '\\'
  | '/' => some '/'
  | 'b' => some (Char.ofNat 8)
  | 'f' => some (Char.ofNat 12)
  | 'n' => some '\n'
  | 'r' => some '\r'
  | 't' => some '\t'
  | _ => none

/-- The rest of a string after its opening quote, and what follows it. -/
def string? : Nat → List Char → Option (List Text.Point × List Char)
  | 0, _ => none
  | _ + 1, [] => none
  | _ + 1, '"' :: rest => some ([], rest)
  | fuel + 1, '\\' :: 'u' :: rest => do
    let (p, rest) ← escapedPoint? rest
    let (ps, rest) ← string? fuel rest
    return (p :: ps, rest)
  | fuel + 1, '\\' :: e :: rest => do
    let c ← simpleEscape? e
    let (ps, rest) ← string? fuel rest
    return (.char c :: ps, rest)
  | fuel + 1, c :: rest =>
    if c == '\\' || c.toNat < 32 then none
    else (string? fuel rest).map fun (ps, rest) => (.char c :: ps, rest)

def wholePart? (cs : List Char) : Option (List Char × List Char) :=
  match cs with
  | '0' :: rest => some (['0'], rest)
  | _ =>
    let digits := cs.takeWhile Char.isDigit
    if digits.isEmpty then none else some (digits, cs.dropWhile Char.isDigit)

def fraction (cs : List Char) : List Char × List Char :=
  match cs with
  | '.' :: rest =>
    let digits := rest.takeWhile Char.isDigit
    if digits.isEmpty then ([], cs) else (digits, rest.dropWhile Char.isDigit)
  | _ => ([], cs)

def exponent (cs : List Char) : Option Int × List Char :=
  match cs with
  | c :: rest =>
    if c == 'e' || c == 'E' then
      let (negative, body) := Number.signed rest
      let digits := body.takeWhile Char.isDigit
      if digits.isEmpty then (none, cs)
      else (some (Number.exponentOf negative digits), body.dropWhile Char.isDigit)
    else (none, cs)
  | [] => (none, cs)

def number (limit : Option Nat) (negative : Bool) (cs : List Char) :
    Except ReadError (Value × List Char) :=
  match wholePart? cs with
  | none => .error .malformed
  | some (whole, rest) =>
    let (places, rest) := fraction rest
    let (e, rest) := exponent rest
    if places.isEmpty && e.isNone then
      if limit.all (whole.length ≤ ·) then
        .ok (.int (Number.applySign negative (Number.valueOf whole)), rest)
      else .error .tooManyDigits
    else
      let d := Number.Decimal.ofDigits negative (whole ++ places) (e.getD 0 - places.length)
      .ok (.float d.toFloat, rest)

/-- The rest of the text after a word that must stand first. -/
def after? (word : List Char) (cs : List Char) : Option (List Char) :=
  if word.isPrefixOf cs then some (cs.drop word.length) else none

def constants : List (String × Value) := [
  ("null", .null), ("true", .bool true), ("false", .bool false),
  ("NaN", .float Number.notANumber), ("Infinity", .float Number.infinity),
  ("-Infinity", .float (-Number.infinity))]

def constant? (cs : List Char) : Option (Value × List Char) :=
  constants.findSome? fun (word, v) => (after? word.toList cs).map (v, ·)

mutual
def value (limits : Limits) : Nat → List Char → Except ReadError (Value × List Char)
  | 0, _ => .error .malformed
  | fuel + 1, '"' :: rest =>
    match string? (fuel + 1) rest with
    | some (ps, rest) => .ok (.str (.ofPoints ps), rest)
    | none => .error .malformed
  | fuel + 1, '[' :: rest => do
    let limits ← limits.inner
    match skipBlanks rest with
    | ']' :: rest => return (.list [], rest)
    | rest =>
      let (items, rest) ← items limits fuel rest
      return (.list items, rest)
  | fuel + 1, '\x7b' :: rest => do
    let limits ← limits.inner
    match skipBlanks rest with
    | '\x7d' :: rest => return (.object [], rest)
    | rest =>
      let (fields, rest) ← members limits fuel [] rest
      return (.object fields, rest)
  | _ + 1, cs =>
    match constant? cs with
    | some r => .ok r
    | none =>
      match cs with
      | '-' :: rest => number limits.digits true rest
      | _ => number limits.digits false cs
def items (limits : Limits) : Nat → List Char → Except ReadError (List Value × List Char)
  | 0, _ => .error .malformed
  | fuel + 1, cs => do
    let (v, rest) ← value limits fuel cs
    match skipBlanks rest with
    | ']' :: rest => return ([v], rest)
    | ',' :: rest => do
      let (others, rest) ← items limits fuel (skipBlanks rest)
      return (v :: others, rest)
    | _ => .error .malformed
def members (limits : Limits) :
    Nat → Fields → List Char → Except ReadError (Fields × List Char)
  | 0, _, _ => .error .malformed
  | fuel + 1, seen, '"' :: rest =>
    match string? (fuel + 1) rest with
    | none => .error .malformed
    | some (key, rest) =>
      match skipBlanks rest with
      | ':' :: rest => do
        let (v, rest) ← value limits fuel (skipBlanks rest)
        let seen := Keyed.put seen (.ofPoints key) v
        match skipBlanks rest with
        | '\x7d' :: rest => return (seen, rest)
        | ',' :: rest => members limits fuel seen (skipBlanks rest)
        | _ => .error .malformed
      | _ => .error .malformed
  | _ + 1, _, _ => .error .malformed
end

def read (limits : Limits) (s : String) : Except ReadError Value := do
  let cs := skipBlanks s.toList
  let (v, rest) ← value limits (cs.length + 1) cs
  if (skipBlanks rest).isEmpty then return v else .error .malformed

end PETriage.Json
