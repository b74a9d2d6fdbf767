/-!
# Bytes of an image

A buffer is a `ByteArray`; positions past its end read as zero, so every reader
checks an extent once and then reads numbers freely inside it. `little` reads a
number low byte first and `unlittle` writes one; a `Span` resolves a window whose
ends may count back from the end of the buffer.
-/
namespace PETriage

def hexDigit (n : Nat) : Char :=
  Nat.digitChar n

def hexDigitValue? (c : Char) : Option Nat :=
  if '0' ≤ c ∧ c ≤ '9' then some (c.toNat - 48)
  else if 'a' ≤ c ∧ c ≤ 'f' then some (c.toNat - 87)
  else if 'A' ≤ c ∧ c ≤ 'F' then some (c.toNat - 55)
  else none

/-- A blank or one of the five controls that separate lines and columns. -/
def isAsciiSpace (c : Char) : Bool := c.toNat == 32 || (9 ≤ c.toNat && c.toNat ≤ 13)

namespace Bytes

def byteAt (b : ByteArray) (i : Nat) : Nat :=
  if h : i < b.size then b[i].toNat else 0

/-- The `width` bytes from `offset` on as one number, low byte first. -/
def little (b : ByteArray) (offset : Nat) : Nat → Nat
  | 0 => 0
  | width + 1 => byteAt b offset + 256 * little b (offset + 1) width

abbrev word (b : ByteArray) (offset : Nat) : Nat := little b offset 2
abbrev double (b : ByteArray) (offset : Nat) : Nat := little b offset 4
abbrev quad (b : ByteArray) (offset : Nat) : Nat := little b offset 8

/-- `width` bytes holding a number, low byte first. -/
def unlittle : Nat → Nat → List UInt8
  | 0, _ => []
  | width + 1, n => UInt8.ofNat n :: unlittle width (n / 256)

theorem length_unlittle (width n : Nat) : (unlittle width n).length = width := by
  induction width generalizing n with
  | zero => rfl
  | succ width ih => simp [unlittle, ih]

/-- An end of a window in a buffer of `size` bytes: a negative one counts from the end. -/
def endpoint (size : Nat) (i : Int) : Nat :=
  if i < 0 then (i + size).toNat else min i.toNat size

theorem endpoint_le (size : Nat) (i : Int) : endpoint size i ≤ size := by
  unfold endpoint
  split <;> omega

theorem endpoint_of_nonneg (size : Nat) {i : Int} (h : 0 ≤ i) :
    endpoint size i = min i.toNat size :=
  if_neg (Int.not_lt.2 h)

/-- The bytes from one end up to the other, empty when they cross. -/
def window (b : ByteArray) (start stop : Int) : ByteArray :=
  b.extract (endpoint b.size start) (endpoint b.size stop)

theorem window_of_nonneg (b : ByteArray) {start stop : Int} (hs : 0 ≤ start) (ht : 0 ≤ stop) :
    window b start stop = b.extract (min start.toNat b.size) (min stop.toNat b.size) := by
  rw [window, endpoint_of_nonneg _ hs, endpoint_of_nonneg _ ht]

/-- A window that lies in the buffer is cut out as it stands. -/
theorem window_of_le (b : ByteArray) {start stop : Nat} (hs : start ≤ stop) (ht : stop ≤ b.size) :
    window b start stop = b.extract start stop := by
  rw [window_of_nonneg b (Int.natCast_nonneg _) (Int.natCast_nonneg _), Int.toNat_natCast,
    Int.toNat_natCast, Nat.min_eq_left ht, Nat.min_eq_left (Nat.le_trans hs ht)]

def ofList (xs : List UInt8) : ByteArray := ⟨xs.toArray⟩

def toList (b : ByteArray) : List UInt8 := b.data.toList

theorem toList_ofList (xs : List UInt8) : toList (ofList xs) = xs := by
  simp [toList, ofList]

def zeros (n : Nat) : ByteArray := ⟨Array.replicate n 0⟩

def beforeZero (xs : List UInt8) : List UInt8 := xs.takeWhile (· != 0)

def toHex (b : ByteArray) : String :=
  String.ofList ((toList b).flatMap fun x => [hexDigit (x.toNat / 16), hexDigit (x.toNat % 16)])

/-- Pairs of hexadecimal digits; whitespace may stand around a pair. -/
def ofHexChars? : List Char → Option (List UInt8)
  | [] => some []
  | [a] => if isAsciiSpace a then some [] else none
  | a :: b :: rest =>
    if isAsciiSpace a then ofHexChars? (b :: rest)
    else do
      let high ← hexDigitValue? a
      let low ← hexDigitValue? b
      let others ← ofHexChars? rest
      return UInt8.ofNat (16 * high + low) :: others

def ofHex? (s : String) : Option ByteArray :=
  (ofHexChars? s.toList).map ofList

end Bytes
end PETriage
