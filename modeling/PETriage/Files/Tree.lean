import PETriage.Files.Path

/-!
# A tree of files

Folders and files at places, each place a row of names from the root. A path is followed
name by name: every step but the last must lead to a folder that is there.
-/
namespace PETriage.Files

inductive Node
  | folder
  | file (bytes : ByteArray)

abbrev Place := List String

/-- A node with its place, and with the length of that, which tells most places apart. -/
structure Item where
  depth : Nat
  place : Place
  node : Node

namespace Item

def ofPlace (p : Place) (n : Node) : Item := ⟨p.length, p, n⟩

def isAt (i : Item) (depth : Nat) (p : Place) : Bool := i.depth == depth && i.place == p

end Item

structure Tree where
  items : List Item
  /-- The folder that relative paths start from. -/
  here : Place := []

inductive Fault
  | missing
  | notFolder
  | isFolder
  | occupied
  | nameTooLong
  | zeroInName
  | tooDeep
  deriving DecidableEq, Repr

abbrev Filed := Except Fault

namespace Tree

def find? (depth : Nat) (p : Place) : List Item → Option Node
  | [] => none
  | i :: rest => if i.isAt depth p then some i.node else find? depth p rest

def node? (t : Tree) (p : Place) : Option Node :=
  if p = [] then some .folder else find? p.length p t.items

def without (t : Tree) (p : Place) : Tree :=
  let depth := p.length
  { t with items := t.items.filter fun i => !i.isAt depth p }

def put (t : Tree) (p : Place) (n : Node) : Tree :=
  { t with items := .ofPlace p n :: (t.without p).items }

theorem find?_filter (items : List Item) (p q : Place) :
    find? q.length q (items.filter fun i => !i.isAt p.length p) =
      if q = p then none else find? q.length q items := by
  induction items with
  | nil => simp [find?]
  | cons i rest ih => grind [find?, Item.isAt]

theorem node?_put (t : Tree) (p q : Place) (n : Node) (h : p ≠ []) :
    (t.put p n).node? q = if q = p then some n else t.node? q := by
  simp only [node?, put, without, find?, find?_filter]
  grind [Item.isAt, Item.ofPlace]

theorem node?_without (t : Tree) (p q : Place) (h : p ≠ []) :
    (t.without p).node? q = if q = p then none else t.node? q := by
  simp only [node?, without, find?_filter]
  grind

def nameLimit : Nat := 255

def pathLimit : Nat := 4096

/-- One name further from a place, which must be a folder. -/
def step (t : Tree) (p : Place) (name : String) : Filed Place :=
  match t.node? p with
  | none => .error .missing
  | some (.file _) => .error .notFolder
  | some .folder =>
    if name = ".." then .ok p.dropLast
    else if nameLimit < name.utf8ByteSize then .error .nameTooLong
    else .ok (p ++ [name])

/-- Where a path starts from, if it can be followed at all. -/
def start (t : Tree) (path : Path) : Filed Place :=
  if path.parts.any (·.toList.contains (Char.ofNat 0)) then .error .zeroInName
  else if pathLimit ≤ path.text.utf8ByteSize then .error .nameTooLong
  else .ok (if path.root = "" then t.here else [])

/-- Where a path leads; something need not be there. -/
def resolve (t : Tree) (path : Path) : Filed Place := do
  path.parts.foldlM t.step (← t.start path)

def nodeAt (t : Tree) (path : Path) : Filed (Place × Node) := do
  let p ← t.resolve path
  match t.node? p with
  | some n => return (p, n)
  | none => throw .missing

/-- The answer to a question about what is there. A name that is too long is an error even
here. -/
def answered (there : Place × Node → Bool) : Filed (Place × Node) → Filed Bool
  | .ok n => .ok (there n)
  | .error .nameTooLong => .error .nameTooLong
  | .error _ => .ok false

def hasNode (t : Tree) (path : Path) : Filed Bool := answered (fun _ => true) (t.nodeAt path)

def hasFile (t : Tree) (path : Path) : Filed Bool :=
  answered (fun (_, n) => match n with
    | .file _ => true
    | .folder => false) (t.nodeAt path)

def contents (t : Tree) (path : Path) : Filed ByteArray := do
  match ← t.nodeAt path with
  | (_, .file b) => return b
  | (_, .folder) => throw .isFolder

def setContents (t : Tree) (path : Path) (b : ByteArray) : Filed Tree := do
  let p ← t.resolve path
  match t.node? p with
  | some .folder => throw .isFolder
  | _ => return t.put p (.file b)

def remove (t : Tree) (path : Path) : Filed Tree := do
  match ← t.nodeAt path with
  | (p, .file _) => return t.without p
  | (_, .folder) => throw .isFolder

/-- How many names lead on from the first place with nothing at it. -/
def missing (t : Tree) (p : Place) : List String → Nat
  | [] => 0
  | name :: rest =>
    match t.step p name with
    | .error _ => 0
    | .ok q => if (t.node? q).isNone then rest.length + 1 else missing t q rest

/-- Goes on from a place name by name, making the folders that are not there. What was made
before a failure stays. -/
def foldersFrom (t : Tree) (p : Place) : List String → Filed Unit × Tree
  | [] =>
    match t.node? p with
    | some .folder => (.ok (), t)
    | some (.file _) => (.error .occupied, t)
    | none => (.error .missing, t)
  | name :: rest =>
    match t.step p name with
    | .error fault => (.error fault, t)
    | .ok q => foldersFrom (if (t.node? q).isNone then t.put q .folder else t) q rest

def depthLimit : Nat := 975

def ensureFolders (t : Tree) (path : Path) : Filed Unit × Tree :=
  match t.start path with
  | .error fault => (.error fault, t)
  | .ok p =>
    if depthLimit < t.missing p path.parts then (.error .tooDeep, t)
    else t.foldersFrom p path.parts

/-- Puts a file in the place of another, which must not be a folder. -/
def replaceFile (t : Tree) (source target : Path) : Filed Tree := do
  let (p, n) ← t.nodeAt source
  let q ← t.resolve target
  match n, t.node? q with
  | .folder, _ => throw .isFolder
  | _, some .folder => throw .isFolder
  | n, _ => return (t.without p).put q n

def below? : Place → Place → Option Place
  | [], q => some q
  | _ :: _, [] => none
  | a :: p, b :: q => if a = b then below? p q else none

def under (t : Tree) (p : Place) : List (Place × Node) :=
  t.items.filterMap fun i =>
    match below? p i.place with
    | some [] => none
    | some rest => some (rest, i.node)
    | none => none

def ofFolders (folders : List Place) (here : Place) : Tree :=
  ⟨folders.map fun p => .ofPlace p .folder, here⟩

def fileList (t : Tree) (path : Path) : List String :=
  match t.nodeAt path with
  | .ok (p, .folder) =>
    let texts := (t.under p).filterMap fun (rest, n) =>
      match n with
      | .file _ => some ("/".intercalate rest)
      | .folder => none
    texts.mergeSort fun a b => !(b < a)
  | _ => []

def gone (before after : Tree) : List Place :=
  before.items.filterMap fun i =>
    match i.node, after.node? i.place with
    | .file _, none => some i.place
    | _, _ => none

/-- What is there that was not there before, the oldest first. -/
def fresh (before after : Tree) : List Item :=
  after.items.reverse.filter fun i =>
    match i.node, before.node? i.place with
    | .file b, some (.file c) => b != c
    | .folder, some .folder => false
    | _, _ => true

end Tree
end PETriage.Files
