import PETriage.Text.Pieces

/-!
# Units of characters

The pair of units of a character past the first plane, and the character of a pair.
-/
namespace PETriage.Text

def isHighUnit (n : Nat) : Bool := 0xD800 ≤ n && n ≤ 0xDBFF
def isLowUnit (n : Nat) : Bool := 0xDC00 ≤ n && n ≤ 0xDFFF

def joined (high low : Nat) : Char := Char.ofNat (0x10000 + (high - 0xD800) * 1024 + (low - 0xDC00))

/-- The pair of a character past the first plane. -/
def halves (c : Char) : Nat × Nat :=
  let n := c.toNat - 0x10000
  (0xD800 + n / 1024, 0xDC00 + n % 1024)

/-- What a unit stands for that has no pair: half of one, or a character of the first plane. -/
def pointOfUnit (n : Nat) : Point :=
  if h : 0xD800 ≤ n ∧ n ≤ 0xDFFF then .half ⟨n, h⟩ else .char (Char.ofNat n)

end PETriage.Text
