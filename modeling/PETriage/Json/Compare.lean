import PETriage.Json.Value
import PETriage.Number.Exact

/-!
# Values compared

Numbers are compared exactly, a truth value counting as one or nothing; texts are compared
by the codes of their characters. Values of other kinds have no order, and the comparison fails with
a reason that names both kinds.
-/
namespace PETriage.Value

inductive Relation
  | less
  | atMost
  | greater
  deriving DecidableEq, Repr

def Relation.sign : Relation → String
  | less => "<"
  | atMost => "<="
  | greater => ">"

def Relation.ofNumbers : Relation → Number.Exact → Number.Exact → Bool
  | less, a, b => a.below b
  | atMost, a, b => a.atMost b
  | greater, a, b => b.below a

def Relation.ofTexts : Relation → Text → Text → Bool
  | less, a, b => a.codes < b.codes
  | atMost, a, b => !(b.codes < a.codes)
  | greater, a, b => b.codes < a.codes

def number? : Value → Option Number.Exact
  | int n => some (.ofInteger n)
  | bool b => some (.ofInteger (if b then 1 else 0))
  | float x => some (.ofReal x)
  | _ => none

def withoutOrder (r : Relation) (a b : Value) : String :=
  "'" ++ r.sign ++ "' not supported between instances of '" ++ a.kind ++ "' and '" ++ b.kind ++ "'"

def holds (r : Relation) (a b : Value) : Except String Bool :=
  match a.number?, b.number?, a, b with
  | some x, some y, _, _ => .ok (r.ofNumbers x y)
  | _, _, str s, str t => .ok (r.ofTexts s t)
  | _, _, list _, list _ => .ok false
  | _, _, _, _ => .error (withoutOrder r a b)

theorem holds_less_int (a b : Int) : holds .less (int a) (int b) = .ok (decide (a < b)) := by
  simp [holds, number?, Relation.ofNumbers, Number.Exact.below_ofInteger]

theorem holds_atMost_int (a b : Int) : holds .atMost (int a) (int b) = .ok (decide (a ≤ b)) := by
  simp [holds, number?, Relation.ofNumbers, Number.Exact.atMost_ofInteger]

theorem holds_greater_int (a b : Int) : holds .greater (int a) (int b) = .ok (decide (b < a)) := by
  simp [holds, number?, Relation.ofNumbers, Number.Exact.below_ofInteger]

/-- The second value if it is less, else the first. -/
def lesser (a b : Value) : Except String Value := do
  return if ← holds .less b a then b else a

/-- Three times a value; a text or a list is put together from three of its kind. -/
def tripled : Value → Except String Value
  | int n => .ok (int (3 * n))
  | bool b => .ok (int (if b then 3 else 0))
  | float x => .ok (float (3.0 * x))
  | str s => .ok (str (s ++ s ++ s))
  | list items => .ok (list (items ++ items ++ items))
  | v => .error ("unsupported operand type(s) for *: 'int' and '" ++ v.kind ++ "'")

/-- The whole number that a value counts as in an index. -/
def whole? : Value → Option Int
  | int n => some n
  | bool b => some (if b then 1 else 0)
  | _ => none

def windowBound (v : Value) : Except String Int :=
  match v.whole? with
  | some n => .ok n
  | none => .error "slice indices must be integers or None or have an __index__ method"

def countBound (v : Value) : Except String Int :=
  match v.whole? with
  | some n => .ok n
  | none => .error ("'" ++ v.kind ++ "' object cannot be interpreted as an integer")

end PETriage.Value
