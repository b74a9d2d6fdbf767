import PETriage.Number.Written
import PETriage.Text.Blank
import PETriage.Text.Digit

/-!
# Whole numbers read from text

A literal is a sign, a base mark and digits with single underscores between them,
blanks around it. Digits of every script count as the plain ones; base marks are
`0x`, `0o` and `0b`, and one underscore may follow them. Without a fixed base the mark
decides, and a decimal literal other than zero has no leading zero.
-/
namespace PETriage.Number

/-- The blanks that may stand around a literal; separator controls are not among them. -/
def isMargin (c : Char) : Bool :=
  if c.toNat < 128 then c.toNat == 32 || (9 ≤ c.toNat && c.toNat ≤ 13) else Text.isBlank c

def plainDigit (c : Char) : Char :=
  if c.toNat < 128 then c else (Text.decimalValue? c).elim c Nat.digitChar

def withoutMargin (cs : List Char) : List Char :=
  ((cs.dropWhile isMargin).reverse.dropWhile isMargin).reverse.map plainDigit

def digitIn? (base : Nat) (c : Char) : Option Nat :=
  (hexDigitValue? c).bind fun d => if d < base then some d else none

/-- The values of digits with single underscores between them. -/
def digits? (base : Nat) : List Char → Option (List Nat)
  | [] => none
  | [c] => (digitIn? base c).map ([·])
  | c :: '_' :: rest => do
    let d ← digitIn? base c
    let ds ← digits? base rest
    return d :: ds
  | c :: rest => do
    let d ← digitIn? base c
    let ds ← digits? base rest
    return d :: ds

def ofDigits (base : Nat) (ds : List Nat) : Nat :=
  ds.foldl (fun n d => n * base + d) 0

/-- Splits off a sign; true for a minus. -/
def signed : List Char → Bool × List Char
  | '-' :: rest => (true, rest)
  | '+' :: rest => (false, rest)
  | rest => (false, rest)

def applySign (negative : Bool) (n : Nat) : Int := if negative then -n else n

def markBase? : Char → Option Nat
  | 'x' | 'X' => some 16
  | 'o' | 'O' => some 8
  | 'b' | 'B' => some 2
  | _ => none

def afterMark : List Char → List Char
  | '_' :: rest => rest
  | rest => rest

def decimalDigits? (cs : List Char) : Option (List Nat) :=
  (digits? 10 cs).bind fun ds => if ds.length ≤ decimalDigitLimit then some ds else none

/-- The digits of a hexadecimal literal, marked or not. -/
def hexDigits? : List Char → Option (List Nat)
  | '0' :: c :: rest =>
    if markBase? c == some 16 then digits? 16 (afterMark rest) else digits? 16 ('0' :: c :: rest)
  | cs => digits? 16 cs

def readDecimal? (cs : List Char) : Option Int :=
  let (negative, body) := signed (withoutMargin cs)
  (decimalDigits? body).map fun ds => applySign negative (ofDigits 10 ds)

def readHex? (cs : List Char) : Option Int :=
  let (negative, body) := signed (withoutMargin cs)
  (hexDigits? body).map fun ds => applySign negative (ofDigits 16 ds)

/-- The value of an unsigned literal whose mark tells its base. -/
def readMarked? (cs : List Char) : Option Nat :=
  match cs with
  | '0' :: c :: rest =>
    match markBase? c with
    | some base => (digits? base (afterMark rest)).map (ofDigits base)
    | none => (decimalDigits? cs).bind fun ds => if ds.all (· == 0) then some 0 else none
  | _ => (decimalDigits? cs).map (ofDigits 10)

/-- A literal whose mark tells its base. -/
def readInteger? (cs : List Char) : Option Int :=
  let (negative, body) := signed (withoutMargin cs)
  (readMarked? body).map (applySign negative)

end PETriage.Number
