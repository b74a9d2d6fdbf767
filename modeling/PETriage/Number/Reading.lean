import PETriage.Number.Literal
import PETriage.Number.Rounded

/-!
# Decimal texts read as values

A decimal is a sign, digits with a point among or around them, and an exponent; single
underscores may stand between digits. `inf`, `infinity` and `nan` are read in either
letter case.
-/
namespace PETriage.Number

/-- A decimal before rounding: `digits · 10 ^ exponent`. -/
structure Decimal where
  negative : Bool
  digits : Nat
  exponent : Int
  deriving DecidableEq, Repr

/-- Every underscore stands between two digits; gives the text without them. -/
def dropUnderscores : List Char → Option (List Char)
  | [] => some []
  | '_' :: _ => none
  | c :: '_' :: d :: rest =>
    if c.isDigit && d.isDigit then (dropUnderscores (d :: rest)).map (c :: ·) else none
  | c :: rest => (dropUnderscores rest).map (c :: ·)

def valueOf (cs : List Char) : Nat := ofDigits 10 (cs.map fun c => c.toNat - 48)

def withoutZeros (cs : List Char) : List Char := cs.dropWhile (· == '0')

/-- More digits than the point half way between two binary values ever has. -/
def digitLimit : Nat := 800

/-- A decimal of many digits. Behind the limit they matter only by not being all zeros, for
which a single one stands. -/
def Decimal.ofDigits (negative : Bool) (cs : List Char) (exponent : Int) : Decimal :=
  let cs := withoutZeros cs
  let kept := cs.take digitLimit
  let cut := cs.drop digitLimit
  if cut.all (· == '0') then ⟨negative, valueOf kept, exponent + cut.length⟩
  else ⟨negative, 10 * valueOf kept + 1, exponent + cut.length - 1⟩

/-- An exponent of more digits than this is out of all proportion. -/
def exponentLimit : Nat := 20

def exponentOf (negative : Bool) (cs : List Char) : Int :=
  let cs := withoutZeros cs
  applySign negative (if exponentLimit < cs.length then Nat.pow 10 exponentLimit else valueOf cs)

/-- What may follow the digits: nothing, or `e` and a signed number. -/
def exponent? : List Char → Option Int
  | [] => some 0
  | c :: rest =>
    if c == 'e' || c == 'E' then
      let (negative, body) := signed rest
      if !body.isEmpty && body.all Char.isDigit then some (exponentOf negative body)
      else none
    else none

def unsignedDecimal? (negative : Bool) (cs : List Char) : Option Decimal :=
  let before := cs.takeWhile Char.isDigit
  let rest := cs.dropWhile Char.isDigit
  let (after, tail) := match rest with
    | '.' :: more => (more.takeWhile Char.isDigit, more.dropWhile Char.isDigit)
    | _ => ([], rest)
  if before.isEmpty && after.isEmpty then none
  else (exponent? tail).map fun e => .ofDigits negative (before ++ after) (e - after.length)

/-- The value nearest to a decimal. Beyond four hundred places nothing but zero or infinity
is near. -/
def Decimal.toFloat (d : Decimal) : Float :=
  let first := (Nat.toDigits 10 d.digits).length + d.exponent
  let magnitude :=
    if d.digits == 0 ∨ first < -400 then 0.0
    else if 400 < first then Float.ofScientific 1 false 400
    else Float.ofScientific d.digits (d.exponent < 0) d.exponent.natAbs
  if d.negative then -magnitude else magnitude

def infinity : Float := Float.ofScientific 1 false 400
def notANumber : Float := infinity - infinity

def readReal? (cs : List Char) : Option Float := do
  let plain ← dropUnderscores (withoutMargin cs)
  let (negative, body) := signed plain
  let word := String.ofList (body.map Char.toLower)
  if word == "inf" || word == "infinity" then
    return if negative then -infinity else infinity
  else if word == "nan" then return notANumber
  else (unsignedDecimal? negative body).map Decimal.toFloat

end PETriage.Number
