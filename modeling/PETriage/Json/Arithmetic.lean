import PETriage.Json.Misfit

/-!
# Sums, products and quotients of values

Whole numbers stay whole, a truth value counting as one or nothing; beside a fraction they
become binary values, which the largest cannot. Other values have no arithmetic.
-/
namespace PETriage.Value

def term : Value → Except Misfit Float
  | str _ => .error .kind
  | v => v.real

def combined (onWhole : Int → Int → Int) (onReal : Float → Float → Float) (a b : Value) :
    Except Misfit Value :=
  match a.whole?, b.whole? with
  | some m, some n => .ok (int (onWhole m n))
  | _, _ =>
    if a.number?.isNone || b.number?.isNone then .error .kind
    else do return float (onReal (← a.term) (← b.term))

def plus : Value → Value → Except Misfit Value := combined (· + ·) (· + ·)
def minus : Value → Value → Except Misfit Value := combined (· - ·) (· - ·)
def times : Value → Value → Except Misfit Value := combined (· * ·) (· * ·)

/-- The quotient by a positive value, rounded down; that of an infinite value is no number. -/
def floorQuotient (x y : Float) : Float :=
  match Number.Exact.ofReal x, Number.Exact.ofReal y with
  | .ratio a b, .ratio c d => ((Number.ofInteger? (a * d / (b * c))).getD 0.0)
  | .ratio a _, .infinite _ => if a < 0 then -1.0 else 0.0
  | _, _ => 0.0 / 0.0

/-- The quotient by a value of at least one, rounded down. -/
def floorOver : Value → Value → Except Misfit Value := combined (· / ·) floorQuotient

def atLeastOne (v : Value) : Except Misfit Value := do
  let less ← (v.holds .less (int 1)).mapError fun _ => Misfit.kind
  return if less then int 1 else v

theorem combined_int (onWhole : Int → Int → Int) (onReal : Float → Float → Float) (m n : Int) :
    combined onWhole onReal (int m) (int n) = .ok (int (onWhole m n)) := rfl

theorem atLeastOne_int (n : Int) : atLeastOne (int n) = .ok (int (max n 1)) := by
  by_cases h : n < 1
  · simp only [atLeastOne, holds_less_int, decide_eq_true h, Int.max_eq_right (Int.le_of_lt h)]
    rfl
  · simp only [atLeastOne, holds_less_int, decide_eq_false h, Int.max_eq_left (Int.not_lt.1 h)]
    rfl

end PETriage.Value
