import PETriage.Number.Binary

/-!
# Numbers compared exactly

A whole number of any size and a binary value are each a fraction, an infinity or no number
at all. They are compared as such, so that neither is rounded for the other.
-/
namespace PETriage.Number

inductive Exact
  | undefined
  | infinite (negative : Bool)
  | ratio (num : Int) (den : Nat)
  deriving DecidableEq, Repr

namespace Exact

def ofInteger (n : Int) : Exact := ratio n 1

def ofParts : Parts → Exact
  | .nan => undefined
  | .infinite negative => infinite negative
  | .finite negative d =>
    let num : Int := d.ratio.1
    ratio (if negative then -num else num) d.ratio.2

def ofReal (x : Float) : Exact := ofParts (parts x)

/-- What is no number is neither below nor above anything. -/
def below : Exact → Exact → Bool
  | ratio a b, ratio c d => a * d < c * b
  | infinite n, infinite m => n && !m
  | infinite n, ratio .. => n
  | ratio .., infinite m => !m
  | _, _ => false

def isNumber : Exact → Bool
  | undefined => false
  | _ => true

def atMost (a b : Exact) : Bool := a.isNumber && b.isNumber && !below b a

theorem below_ofInteger (a b : Int) : below (ofInteger a) (ofInteger b) = decide (a < b) := by
  simp [below, ofInteger]

theorem atMost_ofInteger (a b : Int) : atMost (ofInteger a) (ofInteger b) = decide (a ≤ b) := by
  by_cases h : a ≤ b
  · have hn : ¬b < a := by omega
    simp [atMost, below, ofInteger, isNumber, h, hn]
  · have hn : b < a := by omega
    simp [atMost, below, ofInteger, isNumber, h, hn]

def beyond : Nat := Nat.pow 2 1100

/-- The least whole number that is not below; past every size for what has none. -/
def ceiling : Exact → Int
  | undefined => beyond
  | infinite negative => if negative then -beyond else beyond
  | ratio num den => -(-num / den)

end Exact
end PETriage.Number
