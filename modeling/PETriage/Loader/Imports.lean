import PETriage.Loader.View
import PETriage.Report.Records
import PETriage.Text.Utf8

/-!
# Imported symbols

The import directory is a row of descriptors, each with a library's name and a row of
thunks, which name a function or give its number.
-/
namespace PETriage.Loader

def descriptorSize : Nat := 20
def nameLimit : Nat := 0x200
def errorLimit : Nat := 5
/-- How many thunks are taken from all tables together. -/
def thunkLimit : Nat := 0x2000
def repeatLimit : Nat := 15
def spreadLimit : Nat := 0x8000000
def invalidLimit : Nat := 1001

def isPlus (v : View) : Bool := v.optional.magicCode == Image.pe32PlusMagic

def thunkSize (v : View) : Nat := if isPlus v then 8 else 4

def ordinalMark (v : View) : Nat := if isPlus v then 0x8000000000000000 else 0x80000000

def isFunctionByte (x : UInt8) : Bool :=
  let c := Char.ofNat x.toNat
  c.isAlphanum || ("._?@$()<>" : String).toList.contains c

def isLibraryByte (x : UInt8) : Bool :=
  let c := Char.ofNat x.toNat
  c.isAlphanum || ("!#$%&'()-@^_`\x7b\x7d~+,.;=[]:\\/" : String).toList.contains c

def textOf (xs : List UInt8) : String :=
  let cs := Text.Utf8.decode xs
  String.ofList (cs.reverse.dropWhile (· == Char.ofNat 0)).reverse

/-- The addresses of names that a table has given so far. -/
structure Targets where
  seen : List Nat := []
  low : Nat := 0
  high : Nat := 0

def Targets.insert (t : Targets) (n : Nat) : Targets where
  seen := n :: t.seen
  low := if t.seen.isEmpty then n else min t.low n
  high := max t.high n

/-- A walk along a table: what its thunks name, in the first 4 GiB and beyond. -/
structure Walk where
  near : Targets := {}
  far : Targets := {}
  repeats : Nat := 0

def Walk.insert (w : Walk) (n : Nat) : Walk :=
  let near := decide (n < 0x100000000)
  if (if near then w.near else w.far).seen.contains n then { w with repeats := w.repeats + 1 }
  else if near then { w with near := w.near.insert n }
  else { w with far := w.far.insert n }

/-- Too many thunks name the same, or they lie too far apart, for a table of one library. -/
def Walk.implausible (w : Walk) : Bool :=
  repeatLimit ≤ w.repeats || spreadLimit < w.near.high - w.near.low ||
    spreadLimit < w.far.high - w.far.low

/-- The thunks from an address up to a zero, none if one of them cannot be read or gives too large
a number or if they are implausible. -/
def thunksFrom (v : View) (first bound address : Nat) (w : Walk) :
    Nat → Follow (Option (List Nat))
  | 0 => return some []
  | fuel + 1 => do
    let t ← get
    if bound ≤ address ∨ thunkLimit < t.thunks then return some []
    set { t with thunks := t.thunks + 1 }
    if w.implausible then return none
    match ← v.record? address (thunkSize v) with
    | none => return none
    | some b =>
      let n := Bytes.little b 0 (thunkSize v)
      let isNumber := ordinalMark v ≤ n
      if n = 0 || (first ≤ n && n ≤ address) then return some []
      else if isNumber && 0xFFFF < n % 0x80000000 then return none
      else
        let w := if isNumber then w else w.insert n
        return (← thunksFrom v first bound (address + thunkSize v) w fuel).map (n :: ·)

/-- The thunks of a table; no address means no table. -/
def thunkTable (v : View) (address limit : Nat) : Follow (List Nat) := do
  if address = 0 then return []
  return (← thunksFrom v address (address + limit) address {} (thunkLimit + 2)).getD []

inductive Symbol
  | named (name : String)
  /-- Number zero or an empty name. -/
  | absent
  | invalid
  deriving DecidableEq

def Symbol.name? : Symbol → Option String
  | named name => some name
  | _ => none

/-- What a thunk stands for; nothing if the place of its name cannot be reached. -/
def symbolOf (v : View) (thunk : Nat) : Follow (Option Symbol) := do
  if ordinalMark v ≤ thunk then
    let number := thunk % 65536
    return some (if number = 0 then .absent else .named ("ordinal_" ++ Number.decimal number))
  match ← v.data thunk 2 with
  | .error _ => return none
  | .ok _ =>
    let name ← v.zeroEnded (thunk + 2) nameLimit
    return some (if !name.all isFunctionByte then .invalid
      else if name.isEmpty then .absent
      else .named (textOf name))

def symbolsOf (v : View) : List Nat → Follow (Option (List Symbol))
  | [] => return some []
  | thunk :: rest => do
    match ← symbolOf v thunk with
    | none => return none
    | some s => return (← symbolsOf v rest).map (s :: ·)

/-- The names of a row of thunks. One that cannot be reached, or too many invalid ones in front,
leaves nothing of the row. -/
def namesOf (v : View) (thunks : List Nat) : Follow (List String) := do
  match ← symbolsOf v thunks with
  | none => return []
  | some found =>
    return if invalidLimit < (found.takeWhile (· == .invalid)).length then []
      else found.filterMap Symbol.name?

/-- The symbols of a library, from the first of its two tables that has any. -/
def symbols (v : View) (lookupTable addressTable limit : Nat) : Follow (List String) := do
  let named ← thunkTable v lookupTable limit
  let bound ← thunkTable v addressTable limit
  namesOf v (if named.isEmpty then bound else named)

/-- A library's name; one with a character that no file name has is not shown. -/
def libraryName (v : View) (address : Nat) : Follow String := do
  let name ← v.zeroEnded address nameLimit
  return if name.all isLibraryByte then textOf name else "*invalid*"

/-- How far a row of thunks can reach that starts before its descriptor's end. -/
def thunkReach (v : View) (stop lookupTable addressTable place : Nat) : Nat :=
  if lookupTable < stop ∨ addressTable < stop then max (stop - lookupTable) (stop - addressTable)
  else v.bytes.size - place

/-- The libraries from the descriptor at an address on, given how many gave no symbol so far. -/
def importsFrom (v : View) (address errors : Nat) : Nat → Follow (List Report.Import)
  | 0 => return []
  | fuel + 1 => do
    match ← v.record? address descriptorSize with
    | none => return []
    | some b =>
      if (Bytes.toList b).all (· == 0) then return []
      let stop := address + descriptorSize
      let lookupTable := Bytes.double b 0
      let addressTable := Bytes.double b 16
      let reach := thunkReach v stop lookupTable addressTable (← v.place address)
      let found ← symbols v lookupTable addressTable reach
      if errorLimit < errors then return []
      else if found.isEmpty then importsFrom v stop (errors + 1) fuel
      else
        let library ← libraryName v (Bytes.double b 12)
        let others ← importsFrom v stop errors fuel
        return if library = "" then others else ⟨library, found.map .ofString⟩ :: others

def importSlot : Nat := 1

def View.imports (v : View) : Follow (List Report.Import) := do
  match v.slots[importSlot]? with
  | some slot =>
    if slot.address = 0 then return []
    else importsFrom v slot.address 0 (v.bytes.size + 1)
  | none => return []

end PETriage.Loader
