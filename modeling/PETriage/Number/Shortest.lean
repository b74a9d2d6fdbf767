import PETriage.Number.Rounded

/-!
# The shortest decimal text of a value

The fewest digits that read back as the value, and of those the nearest to it. A value
reads back from every decimal in the interval half way to its two neighbours, both ends
included when its mantissa is even.
-/
namespace PETriage.Number

/-- The interval of decimals that read back as a positive value, in quarters of its last
binary place: twice the mantissa's neighbours' midpoints over a common denominator. -/
structure Interval where
  low : Nat
  high : Nat
  den : Nat
  closed : Bool

/-- Below a power of two the neighbour is half as far away. -/
def Dyadic.interval (d : Dyadic) : Interval :=
  let lower :=
    if d.mantissa == exponentWeight ∧ -1074 < d.exponent then 4 * d.mantissa - 1
    else 4 * d.mantissa - 2
  let upper := 4 * d.mantissa + 2
  let closed := d.mantissa % 2 == 0
  if 0 ≤ d.exponent then
    let scale := Nat.pow 2 d.exponent.toNat
    ⟨lower * scale, upper * scale, 4, closed⟩
  else ⟨lower, upper, 4 * Nat.pow 2 (-d.exponent).toNat, closed⟩

def Interval.has (i : Interval) (n d : Nat) : Bool :=
  if i.closed then i.low * d ≤ n * i.den && n * i.den ≤ i.high * d
  else i.low * d < n * i.den && n * i.den < i.high * d

def scaledUp (units : Nat) (e : Int) : Nat × Nat :=
  if 0 ≤ e then (units * Nat.pow 10 e.toNat, 1) else (units, Nat.pow 10 (-e).toNat)

/-- The multiple of `10 ^ e` nearest to the value, of those that read back as it. -/
def nearestOn (d : Dyadic) (e : Int) : Option Nat :=
  let (num, den) := d.ratio
  let (n, m) := scaledDown num den e
  let below := n / m
  let hit (units : Nat) : Bool := let (a, b) := scaledUp units e; d.interval.has a b
  match hit below && below != 0, hit (below + 1) with
  | true, true => some (roundedQuotient n m)
  | true, false => some below
  | false, true => some (below + 1)
  | false, false => none

/-- Tries one digit more each time, from the exponent of the first digit down. -/
def shortestFrom (d : Dyadic) (first : Int) : Nat → Nat → Nat × Int
  | 0, count =>
    let e := first - (count - 1 : Nat)
    let (n, m) := scaledDown d.ratio.1 d.ratio.2 e
    (roundedQuotient n m, e)
  | fuel + 1, count =>
    let e := first - (count - 1 : Nat)
    match nearestOn d e with
    | some units => (units, e)
    | none => shortestFrom d first fuel (count + 1)

/-- Digits of the shortest decimal of a positive magnitude, without trailing zeros, and the
exponent of the first. -/
def shortestDigits (d : Dyadic) : List Char × Int :=
  let (units, e) := shortestFrom d (leadingExponent d.ratio.1 d.ratio.2) 16 1
  let digits := Nat.toDigits 10 units
  (dropTrailingZeros digits, e + (digits.length - 1 : Nat))

/-- Positional from `10 ^ -4` to below `10 ^ 16` and with a place after the point, else with
an exponent. -/
def shortest (x : Float) : String :=
  match parts x with
  | .nan => nanText
  | .infinite negative => withSign negative infiniteText
  | .finite negative d =>
    withSign negative <| String.ofList <|
      if d.mantissa == 0 then ['0', '.', '0']
      else
        let (digits, e) := shortestDigits d
        if e < -4 ∨ 16 ≤ e then
          joinPoint (digits.take 1, digits.drop 1) ++ 'e' :: exponentText e
        else
          let (before, after) := positional digits e
          joinPoint (before, if after.isEmpty then ['0'] else after)

end PETriage.Number
