import PETriage.Number.Binary

/-!
# Decimal texts of fixed length

`fixed` writes a value with a given count of places, `significant` with a given count of
digits and no trailing zeros. Both round the exact value, a half to the even neighbour.
-/
namespace PETriage.Number

/-- `num / den` to the nearest whole number, a half to the even one. -/
def roundedQuotient (num den : Nat) : Nat :=
  let q := num / den
  let twice := 2 * (num % den)
  if twice < den then q
  else if den < twice then q + 1
  else q + q % 2

def nanText : String := "nan"
def infiniteText : String := "inf"

def withSign (negative : Bool) (s : String) : String := if negative then "-" ++ s else s

/-- A count of units of the last place with a point before the last `places` digits. -/
def pointed (places units : Nat) : String :=
  let digits := (Nat.toDigits 10 units).leftpad (places + 1) '0'
  let cut := digits.length - places
  String.ofList (digits.take cut ++ (if places == 0 then [] else '.' :: digits.drop cut))

def fixedMagnitude (places : Nat) (d : Dyadic) : String :=
  pointed places (roundedQuotient (d.ratio.1 * Nat.pow 10 places) d.ratio.2)

def fixed (places : Nat) (x : Float) : String :=
  match parts x with
  | .nan => nanText
  | .infinite negative => withSign negative infiniteText
  | .finite negative d => withSign negative (fixedMagnitude places d)

/-- `num / den · 10 ^ (-e)` as a fraction. -/
def scaledDown (num den : Nat) (e : Int) : Nat × Nat :=
  if 0 ≤ e then (num, den * Nat.pow 10 e.toNat) else (num * Nat.pow 10 (-e).toNat, den)

/-- The exponent of the first digit of a positive fraction. -/
def leadingExponent (num den : Nat) : Int :=
  let guess : Int := (Nat.toDigits 10 num).length - (Nat.toDigits 10 den).length
  let (n, d) := scaledDown num den guess
  if n < d then guess - 1 else guess

/-- The first `count` digits of a positive fraction, rounded, and the exponent of the first. -/
def leadingDigits (count num den : Nat) : Nat × Int :=
  let e := leadingExponent num den
  let (n, d) := scaledDown num den (e - (count - 1 : Nat))
  let digits := roundedQuotient n d
  if digits == Nat.pow 10 count then (Nat.pow 10 (count - 1), e + 1) else (digits, e)

def dropTrailingZeros (cs : List Char) : List Char :=
  (cs.reverse.dropWhile (· == '0')).reverse

/-- An exponent with its sign and at least two digits. -/
def exponentText (e : Int) : List Char :=
  (if e < 0 then '-' else '+') :: (Nat.toDigits 10 e.natAbs).leftpad 2 '0'

/-- Digits with a point after the first `e + 1` of them. -/
def positional (digits : List Char) (e : Int) : List Char × List Char :=
  if e < 0 then (['0'], List.replicate (-e - 1).toNat '0' ++ digits)
  else (digits.take (e.toNat + 1) ++ List.replicate (e.toNat + 1 - digits.length) '0',
    digits.drop (e.toNat + 1))

def joinPoint : List Char × List Char → List Char
  | (before, []) => before
  | (before, after) => before ++ '.' :: after

/-- At most `count` digits, positional while the first digit's exponent is at least -4 and
below `count`. -/
def significant (count : Nat) (x : Float) : String :=
  match parts x with
  | .nan => nanText
  | .infinite negative => withSign negative infiniteText
  | .finite negative d =>
    withSign negative <|
      if d.mantissa == 0 then "0"
      else
        let (units, e) := leadingDigits count d.ratio.1 d.ratio.2
        let digits := Nat.toDigits 10 units
        let kept := dropTrailingZeros digits
        String.ofList <|
          if e < -4 ∨ (count : Int) ≤ e then
            joinPoint (kept.take 1, kept.drop 1) ++ 'e' :: exponentText e
          else
            let (before, after) := positional digits e
            joinPoint (before, dropTrailingZeros after)

end PETriage.Number
