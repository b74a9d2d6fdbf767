import PETriage.Text.CaseTable

/-!
# Lower case and capitals of a text

Lower case is taken character by character, except that a capital sigma becomes the
final form when it closes a word: a cased letter stands before it, none after it, and
characters that case ignores are passed over on both sides.
-/
namespace PETriage.Text

def imageIn (runs : Array (Nat × Nat × Nat × Nat)) (n : Nat) : Option Nat :=
  (runs.find? fun (first, last, step, _) => first ≤ n && n ≤ last && (n - first) % step == 0).map
    fun (first, _, _, image) => image + n - first

def inRanges (ranges : Array (Nat × Nat)) (c : Char) : Bool :=
  ranges.any fun (first, last) => first ≤ c.toNat && c.toNat ≤ last

def lowerChar (c : Char) : List Char :=
  if c.toNat < 128 then [c.toLower]
  else if c.toNat == 304 then ['i', Char.ofNat 775]
  else [(imageIn lowerRuns c.toNat).elim c Char.ofNat]

def titleChar (c : Char) : List Char :=
  if c.toNat < 128 then [c.toUpper]
  else match titleExpansions.find? (·.1 == c.toNat) with
    | some (_, cs) => cs.map Char.ofNat
    | none => [(imageIn titleRuns c.toNat).elim c Char.ofNat]

def isCased (c : Char) : Bool := inRanges casedRanges c
def isIgnorable (c : Char) : Bool := inRanges ignorableRanges c

/-- The nearest character that case does not ignore is a cased one. -/
def meetsCased (cs : List Char) : Bool :=
  ((cs.dropWhile isIgnorable).head?.map isCased).getD false

def capitalSigma : Char := Char.ofNat 0x3A3

/-- Lower case of `rest`, with the characters before it given from the nearest on. -/
def lowerAfter (before : List Char) : List Char → List Char
  | [] => []
  | c :: rest =>
    (if c == capitalSigma then
      [Char.ofNat (if meetsCased before && !meetsCased rest then 0x3C2 else 0x3C3)]
    else lowerChar c) ++ lowerAfter (c :: before) rest

def lower (cs : List Char) : List Char := lowerAfter [] cs

def capitalize : List Char → List Char
  | [] => []
  | c :: rest => titleChar c ++ lowerAfter [c] rest

def lowerText (s : String) : String := String.ofList (lower s.toList)

end PETriage.Text
