import PETriage.Json.Value
import PETriage.Number.Reading
import PETriage.Text.Case

/-!
# Values looked up in a payload

A number may stand under a key as a whole number, a binary value without fraction, a text
of digits or of hexadecimal digits after `0x`, or inside an object. A lookup gives a value
or nothing; only a whole number that no binary value can hold is an error.
-/
namespace PETriage.Field

/-- A whole number that rounds to no finite binary value. -/
inductive RangeError
  | tooLarge
  deriving DecidableEq, Repr

def RangeError.message : RangeError → String
  | tooLarge => "int too large to convert to float"

def isHexMarked (s : String) : Bool :=
  match Text.trim s.toList with
  | '0' :: c :: _ => c == 'x' || c == 'X'
  | _ => false

/-- The number that a text of digits or a marked hexadecimal text stands for. -/
def naturalOfText? (s : String) : Option Nat :=
  let cs := Text.trim s.toList
  if isHexMarked s then (Number.readHex? cs).map Int.toNat
  else if !cs.isEmpty && cs.all Text.isDigit then (Number.readDecimal? cs).map Int.toNat
  else none

def naturalOfInt? (n : Int) : Option Nat := if 0 ≤ n then some n.toNat else none

/-- The number that a value stands for; negative ones and fractions stand for none. -/
def natural? : Value → Option Nat
  | .int n => naturalOfInt? n
  | .float x => (Number.wholeValue? x).bind naturalOfInt?
  | .str t => t.whole?.bind naturalOfText?
  | _ => none

/-- A number directly under the key, but not as a hexadecimal text. -/
def decimalAt? (key : String) (o : Fields) : Option Nat :=
  match o.get? key with
  | some (.str t) => t.whole?.bind fun s => if isHexMarked s then none else naturalOfText? s
  | some v => natural? v
  | none => none

def hexAt? (key : String) (o : Fields) : Option Nat :=
  match o.get? key with
  | some (.str t) => t.whole?.bind fun s => if isHexMarked s then naturalOfText? s else none
  | _ => none

def follow? (o : Fields) (key : String) : List String → Option Value
  | [] => o.get? key
  | next :: path =>
    match o.get? key with
    | some (.object inner) => follow? inner next path
    | _ => none

def nestedAt? (key : String) (path : List String) (o : Fields) : Option Nat :=
  (follow? o key path).bind natural?

def realOfText? (t : Text) : Option Float := t.whole?.bind fun s => Number.readReal? s.toList

/-- A binary value: a number or a text of one. -/
def realAt? (key : String) (o : Fields) : Option (Except RangeError Float) :=
  match o.get? key with
  | some (.int n) =>
    match Number.ofInteger? n with
    | some x => some (.ok x)
    | none => some (.error .tooLarge)
  | some (.float x) => some (.ok x)
  | some (.str t) => (realOfText? t).map .ok
  | _ => none

/-- A text that is not blank, at the end of a path. -/
def textAt? (key : String) (path : List String) (o : Fields) : Option Text :=
  match follow? o key path with
  | some (.str t) => if Text.isBlankText t then none else some t
  | _ => none

/-- A text that is neither blank nor a number. -/
def labelAt? (key : String) (o : Fields) : Option Text :=
  (textAt? key [] o).bind fun t => if (t.whole?.bind naturalOfText?).isSome then none else some t

/-- Capitals in place of underscores. -/
def camel (name : String) : String :=
  match name.toList.splitOn '_' with
  | [] => ""
  | head :: parts => String.ofList (head ++ parts.flatMap Text.capitalize)

/-- Lookups in a fixed order, the first that finds anything deciding, and a standard for when
none does. -/
structure Spec (α : Type) where
  lookups : List (Fields → Option α)
  standard : α

namespace Spec

def find? {α : Type} (s : Spec α) (o : Fields) : Option α := s.lookups.findSome? (· o)

def resolve {α : Type} (s : Spec α) (v : Value) : α :=
  match v with
  | .object o => (s.find? o).getD s.standard
  | _ => s.standard

def map {α β : Type} (f : α → β) (s : Spec α) : Spec β :=
  ⟨s.lookups.map fun find o => (find o).map f, f s.standard⟩

end Spec

/-- The keys of a numeric field: its name, the name with capitals, and its aliases. -/
def keys (name : String) (aliases : List String) : List String :=
  (name :: camel name :: aliases).foldl
    (fun seen k => if seen.contains k then seen else seen ++ [k]) []

/-- Decimal under each key, then hexadecimal under each, then inside an object under each. -/
def numericLookups (ks : List String) : List (Fields → Option Nat) :=
  ks.map decimalAt? ++ ks.map hexAt? ++
    ks.flatMap fun k => [nestedAt? k ["decimal"], nestedAt? k ["hex"], nestedAt? k ["value"]]

def numeric (name : String) (aliases : List String) : Spec Nat :=
  ⟨numericLookups (keys name aliases), 0⟩

def Spec.optional {α : Type} (s : Spec α) : Spec (Option α) :=
  ⟨s.lookups.map fun find o => (find o).map some, none⟩

/-- A numeric field that may also stand at one more path. -/
def numericOr (name : String) (aliases : List String) (key inner : String) : Spec Nat :=
  ⟨numericLookups (keys name aliases) ++ [nestedAt? key [inner]], 0⟩

def named (lookups : List (Fields → Option Text)) (standard : Text) : Spec Text :=
  ⟨lookups, standard⟩

def real (ks : List String) : Spec (Except RangeError Float) :=
  ⟨ks.map realAt?, .ok 0.0⟩

end PETriage.Field
