/-!
# Binary floating-point values taken apart

A finite value is a signed whole number times a power of two. The exact parts are what
the decimal texts are computed from, so no text depends on a rounded intermediate.
-/
namespace PETriage.Number

/-- The magnitude `mantissa · 2 ^ exponent`. -/
structure Dyadic where
  mantissa : Nat
  exponent : Int
  deriving DecidableEq, Repr

inductive Parts
  | nan
  | infinite (negative : Bool)
  | finite (negative : Bool) (magnitude : Dyadic)
  deriving DecidableEq, Repr

/-- The weight of the sign among the 64 bits of a value, and that of the lowest exponent bit. -/
def signWeight : Nat := 0x8000000000000000
def exponentWeight : Nat := 0x10000000000000

def partsOfBits (bits : Nat) : Parts :=
  let negative := bits / signWeight % 2 == 1
  let exponent : Nat := bits / exponentWeight % 2048
  let fraction : Nat := bits % exponentWeight
  if exponent == 2047 then
    if fraction == 0 then .infinite negative else .nan
  else if exponent == 0 then .finite negative ⟨fraction, -1074⟩
  else .finite negative ⟨exponentWeight + fraction, (exponent : Int) - 1075⟩

def parts (x : Float) : Parts := partsOfBits x.toBits.toNat

namespace Dyadic

def ratio (d : Dyadic) : Nat × Nat :=
  if 0 ≤ d.exponent then (d.mantissa * Nat.pow 2 d.exponent.toNat, 1)
  else (d.mantissa, Nat.pow 2 (-d.exponent).toNat)

def whole? (d : Dyadic) : Option Nat :=
  let (num, den) := d.ratio
  if num % den == 0 then some (num / den) else none

def floor (d : Dyadic) : Nat := d.ratio.1 / d.ratio.2

end Dyadic

def wholeValue? (x : Float) : Option Int :=
  match parts x with
  | .finite negative d => d.whole?.map fun n => if negative then -(n : Int) else n
  | _ => none

/-- The least whole number that rounds to no finite value. -/
def overflowBound : Nat := Nat.pow 2 1024 - Nat.pow 2 970

/-- The value nearest to a whole number, if one is finite. -/
def ofInteger? (n : Int) : Option Float :=
  if n.natAbs < overflowBound then
    let x := Float.ofScientific n.natAbs false 0
    some (if n < 0 then -x else x)
  else none

end PETriage.Number
