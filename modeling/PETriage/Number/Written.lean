import PETriage.Bytes

/-!
# Whole numbers as text

Decimal and hexadecimal texts of whole numbers. A decimal text has at most
`decimalDigitLimit` digits, on the way out and on the way in; hexadecimal has no limit.
-/
namespace PETriage.Number

def decimalDigitLimit : Nat := 4300

/-- A whole number with more decimal digits than a text may have. -/
inductive WrittenError
  | tooManyDigits
  deriving DecidableEq, Repr

def decimalLength (n : Int) : Nat := (Nat.toDigits 10 n.natAbs).length

def decimal (n : Int) : String :=
  let digits := String.ofList (Nat.toDigits 10 n.natAbs)
  if n < 0 then "-" ++ digits else digits

def decimal? (n : Int) : Except WrittenError String :=
  if decimalLength n ≤ decimalDigitLimit then .ok (decimal n) else .error .tooManyDigits

def hexDigits (n : Nat) : List Char := Nat.toDigits 16 n

/-- Lower-case hexadecimal after `0x`, a sign between the two. -/
def hex (n : Int) : String :=
  String.ofList ('0' :: 'x' :: ((if n < 0 then ['-'] else []) ++ hexDigits n.natAbs))

/-- Lower-case hexadecimal after `0x`, a sign in front. -/
def signedHex (n : Int) : String := (if n < 0 then "-" else "") ++ hex n.natAbs

/-- Lower-case hexadecimal after `0x`, filled up with zeros to `width` digits. -/
def hexPadded (width : Nat) (n : Nat) : String :=
  String.ofList ('0' :: 'x' :: (hexDigits n).leftpad width '0')

end PETriage.Number
