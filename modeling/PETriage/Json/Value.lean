import PETriage.Text.Pieces

/-!
# Payload values

What an analysis module hands over: nulls, truth values, whole numbers of any size,
binary values, texts, lists, and objects whose fields keep their order.
-/
namespace PETriage

inductive Value where
  | null
  | bool (b : Bool)
  | int (n : Int)
  | float (x : Float)
  | str (t : Text)
  | list (items : List Value)
  | object (fields : List (Text × Value))
  deriving Inhabited

/-- Values under keys, in the order in which the keys came. -/
abbrev Keyed (κ : Type) := List (κ × Value)

abbrev Fields := Keyed Text

namespace Keyed

variable {κ : Type} [DecidableEq κ]

def get? : Keyed κ → κ → Option Value
  | [], _ => none
  | (k, v) :: rest, key => if k = key then some v else get? rest key

/-- Sets a field in its place, or after the others when it is new. -/
def put : Keyed κ → κ → Value → Keyed κ
  | [], key, v => [(key, v)]
  | (k, w) :: rest, key, v => if k = key then (k, v) :: rest else (k, w) :: put rest key v

theorem get?_put (o : Keyed κ) (key k : κ) (v : Value) :
    (o.put key v).get? k = if k = key then some v else o.get? k := by
  induction o with
  | nil => grind [put, get?]
  | cons f rest ih => obtain ⟨a, w⟩ := f; grind [put, get?]

end Keyed

namespace Value

mutual
/-- Equality with binary values told apart by their bits. -/
def same : Value → Value → Bool
  | null, null => true
  | bool a, bool b => a == b
  | int a, int b => a == b
  | float a, float b => a.toBits == b.toBits
  | str a, str b => a == b
  | list a, list b => sameItems a b
  | object a, object b => sameFields a b
  | _, _ => false
def sameItems : List Value → List Value → Bool
  | [], [] => true
  | a :: as, b :: bs => same a b && sameItems as bs
  | _, _ => false
def sameFields : List (Text × Value) → List (Text × Value) → Bool
  | [], [] => true
  | (k, a) :: as, (l, b) :: bs => k == l && same a b && sameFields as bs
  | _, _ => false
end

instance : BEq Value := ⟨same⟩

/-- Zero, nothing and emptiness do not count. -/
def counts : Value → Bool
  | null => false
  | bool b => b
  | int n => n != 0
  | float x => x != 0
  | str t => t != ""
  | list items => !items.isEmpty
  | object fields => !fields.isEmpty

def kind : Value → String
  | null => "NoneType"
  | bool _ => "bool"
  | int _ => "int"
  | float _ => "float"
  | str _ => "str"
  | list _ => "list"
  | object _ => "dict"

def fields? : Value → Option Fields
  | object fields => some fields
  | _ => none

def field? (v : Value) (key : Text) : Option Value := v.fields?.bind (·.get? key)

def items? : Value → Option (List Value)
  | list items => some items
  | _ => none

def text? : Value → Option Text
  | str t => some t
  | _ => none

def nat (n : Nat) : Value := .int n

def orNull {α : Type} (f : α → Value) : Option α → Value
  | some a => f a
  | none => .null

end Value
end PETriage
