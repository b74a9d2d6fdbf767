import PETriage.Text.Pieces

/-!
# Blank characters

The 29 code points that separate words, and trimming them off the ends of a text.
-/
namespace PETriage.Text

def isBlank (c : Char) : Bool :=
  let n := c.toNat
  (9 ≤ n && n ≤ 13) || (28 ≤ n && n ≤ 32) || n == 0x85 || n == 0xA0 || n == 0x1680 ||
    (0x2000 ≤ n && n ≤ 0x200A) || n == 0x2028 || n == 0x2029 || n == 0x202F || n == 0x205F ||
    n == 0x3000

def trim (cs : List Char) : List Char :=
  ((cs.dropWhile isBlank).reverse.dropWhile isBlank).reverse

def isBlankText (t : Text) : Bool := t.tail.isEmpty && (trim t.head.toList).isEmpty

end PETriage.Text
