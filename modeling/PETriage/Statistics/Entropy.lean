import PETriage.Number.Rounded
import PETriage.Statistics.Histogram

/-!
# Entropy and chi-square of bytes

Shannon entropy in bits per byte and the chi-square statistic against equal counts, both
functions of the histogram alone. High entropy suggests compressed or encrypted bytes, a
large chi-square a distribution far from even.
-/
namespace PETriage.Statistics

def highEntropy : Float := 7.0
def maxEntropy : Float := 8.0

/-- The value moved into the range, the lower end winning over a value that is no number. -/
def clampEntropy (h : Float) : Float :=
  let capped := if h < maxEntropy then h else maxEntropy
  if capped > 0.0 then capped else 0.0

def entropyOf (counts : Histogram) (total : Nat) : Float :=
  if total == 0 then 0.0
  else clampEntropy <| counts.toList.foldl
    (fun h count =>
      if count == 0 then h
      else
        let p := Float.ofNat count / Float.ofNat total
        h - p * Float.log2 p) 0.0

def chiSquareOf (counts : Histogram) (total : Nat) : Float :=
  if total == 0 then 0.0
  else
    let expected := Float.ofNat total / 256.0
    counts.toList.foldl
      (fun sum count => sum + Float.pow (Float.ofNat count - expected) 2.0 / expected) 0.0

def entropy (b : ByteArray) : Float := entropyOf (.ofBytes b) b.size
def chiSquare (b : ByteArray) : Float := chiSquareOf (.ofBytes b) b.size

def entropyText (x : Float) : String := Number.fixed 6 x
def chiSquareText (x : Float) : String := Number.fixed 2 x

def entropyLabel (x : Float) : String :=
  if x > highEntropy then "Encrypted"
  else if x > 6.5 then "Packed"
  else if x > 5.5 then "Compressed"
  else "Normal"

end PETriage.Statistics
