import PETriage.Digest.Sha256
import PETriage.Loader.Names
import PETriage.Loader.View
import PETriage.Statistics.Entropy

/-!
# Resources

A tree of three levels: types, names, languages. A folder ends at an entry that cannot be
read; only the data of a resource must be there.
-/
namespace PETriage.Loader

def folderSize : Nat := 16
def entrySize : Nat := 8
def leafSize : Nat := 16
def entryLimit : Nat := 4096
/-- How many entries all folders together may announce. -/
def announceLimit : Nat := 0x8000
/-- How many folders deep the tree is followed below its root. -/
def maxDepth : Nat := 32

/-- What an entry of a folder is known by: its number or its name, which is read after all the
entries of the folder. -/
inductive Label
  | number (n : Nat)
  | text (address : Nat)
  | name (s : String)

/-- An entry of a folder with its name's number and what it leads to. -/
inductive Entry where
  | folder (label : Label) (entries : List Entry)
  | leaf (label : Label) (name address size : Nat)

def nameMark : Nat := 0x80000000

def leafAt? (v : View) (address : Nat) : Follow (Option (Nat × Nat)) := do
  return (← v.record? address leafSize).map fun b => (Bytes.double b 0, Bytes.double b 4)

/-! ## Names -/

/-- One unit of a name; half of a pair stands for itself by its number. -/
def unitText (n : Nat) : List Char :=
  if 0xD800 ≤ n ∧ n < 0xE000 then '\\' :: 'u' :: Number.hexDigits n else [Char.ofNat n]

def unitsOf : List UInt8 → List Nat
  | a :: b :: rest => (a.toNat + 256 * b.toNat) :: unitsOf rest
  | _ => []

def nameLength (v : View) (address : Nat) : Follow Nat := do
  return (← v.record? address 2).elim 0 fun b => Bytes.word b 0

/-- How many bytes of a name are read before the rest of it. -/
def nameFront : Nat := 256

/-- The units at an address, at most so many; the rest of them is not read when a zero is found
in front. -/
def unitsAt (v : View) (address length : Nat) : Follow (Loaded (List Nat)) := do
  match ← v.data address (min (2 * length) nameFront) with
  | .error e => return .error e
  | .ok front =>
    let units := unitsOf (Bytes.toList front)
    if units.contains 0 || front.size < nameFront || 2 * length = nameFront then return .ok units
    match ← v.data (address + nameFront) (2 * length - nameFront) with
    | .error e => return .error e
    | .ok rest => return .ok (units ++ unitsOf (Bytes.toList rest))

/-- A name with its length in front; one that cannot be reached is empty. -/
def countedName (v : View) (address : Nat) : Follow String := do
  let length ← nameLength v address
  if length = 0 then return ""
  match ← unitsAt v (address + 2) length with
  | .error _ => return ""
  | .ok units => return String.ofList ((units.takeWhile (· != 0)).flatMap unitText)

def Label.named (v : View) : Label → Follow Label
  | .text address => return .name (← countedName v address)
  | label => return label

def Entry.named (v : View) : Entry → Follow Entry
  | folder label entries => return .folder (← label.named v) entries
  | leaf label name address size => return .leaf (← label.named v) name address size

/-! ## Folders -/

/-- Where the last name of a folder starts and ends. -/
abbrev Last := Option (Nat × Nat)

/-- The entries of a folder from some place on, with whether the name in front of them is
overrun. -/
structure Entries where
  entries : List Entry := []
  overruns : Bool := false

/-- Puts an entry in front; a name that the next one cuts into is left empty. -/
def Entries.cons (label : Label) (entry : Label → Entry) (es : Entries) : Entries :=
  match label, es.overruns with
  | .text _, true => { entries := entry (.name "") :: es.entries }
  | _, _ => { es with entries := entry label :: es.entries }

mutual
/-- The entries of the folder at an address; `seen` are the folders around it, and each level takes
two steps of the fuel. -/
def folderAt (v : View) (base address : Nat) (seen : List Nat) :
    Nat → Follow (Option (List Entry))
  | 0 => return none
  | fuel + 1 => do
    match ← v.record? address folderSize with
    | none => return none
    | some b =>
      let count := Bytes.word b 12 + Bytes.word b 14
      if entryLimit < count then return none
      let announced := (← get).entries + count
      modify fun t => { t with entries := announced }
      if announceLimit < announced then return none
      let es ← entriesFrom v base (address + folderSize) seen none fuel count
      return some (← es.entries.mapM (Entry.named v))
def entriesFrom (v : View) (base address : Nat) (seen : List Nat) (last : Last) :
    Nat → Nat → Follow Entries
  | 0, _ => return {}
  | _ + 1, 0 => return {}
  | fuel + 1, count + 1 => do
    match ← v.record? address entrySize with
    | none => return {}
    | some b =>
      let name := Bytes.double b 0
      let target := Bytes.double b 4
      let isText := decide (nameMark ≤ name)
      let text := base + name % nameMark
      let label : Label := if isText then .text text else .number name
      let length ← if isText then nameLength v text else pure 0
      if isText && last.any fun (first, stop) => first < text && text ≤ stop then
        return { overruns := true }
      let last := if isText then some (text, text + length) else last
      let rest (entry : Label → Entry) : Follow Entries := do
        let es ← entriesFrom v base (address + entrySize) seen last (fuel + 1) count
        return es.cons label entry
      let place := base + target % nameMark
      if nameMark ≤ target then
        if seen.contains place then return {}
        match ← folderAt v base place (place :: seen) fuel with
        | none => return {}
        | some entries => rest (.folder · entries)
      else match ← leafAt? v place with
        | none => return {}
        | some (dataAddress, size) => rest (.leaf · name dataAddress size)
end

/-! ## Resources -/

/-- The name of a type: its own, that of a standard type, or its number. -/
def typeName : Label → String
  | .name s => s
  | .text _ => ""
  | .number n =>
    let number := n % 65536
    (resourceTypes.name? number).getD (Number.decimal number)

structure Resource where
  type : String
  language : Nat
  sublanguage : Nat
  size : Nat
  entropy : Float
  sha256 : String

inductive ResourceError
  | unreachable
  | noData
  deriving DecidableEq, Repr

def resourceOf (v : View) (type : String) : Entry → ExceptT ResourceError Follow Resource
  | .folder .. => throw .noData
  | .leaf _ name address size => do
    match ← v.data address size with
    | .error _ => throw .unreachable
    | .ok b => return {
      type := type
      language := name % 1024
      sublanguage := name / 1024
      size := size
      entropy := Statistics.entropy b
      sha256 := Digest.Sha256.digest b }

def Entry.entries : Entry → List Entry
  | folder _ entries => entries
  | leaf .. => []

def Entry.label : Entry → Label
  | folder label _ | leaf label .. => label

/-- Every entry of the third level, with the type that it is under. -/
def leaves (types : List Entry) : List (String × Entry) :=
  types.flatMap fun t =>
    let type := typeName t.label
    t.entries.flatMap fun name => name.entries.map fun language => (type, language)

def resourceSlot : Nat := 2

def View.resources (v : View) : ExceptT ResourceError Follow (List Resource) := do
  match v.slots[resourceSlot]? with
  | none => return []
  | some slot =>
    if slot.address = 0 then return []
    match ← folderAt v slot.address slot.address [slot.address] (2 * (maxDepth + 1)) with
    | none => return []
    | some types => (leaves types).mapM fun (type, e) => resourceOf v type e

end PETriage.Loader
