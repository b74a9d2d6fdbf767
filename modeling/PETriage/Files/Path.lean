/-!
# Paths of files

A path is a row of names under a root, or under no root when it is relative. Empty names
and single points disappear; two points stay, since they depend on what is there.
-/
namespace PETriage.Files

structure Path where
  /-- One slash, two, or none. -/
  root : String := ""
  parts : List String
  deriving DecidableEq, Repr

def splitSlashes : List Char → List (List Char)
  | [] => [[]]
  | c :: rest =>
    if c == '/' then [] :: splitSlashes rest
    else match splitSlashes rest with
      | [] => [[c]]
      | piece :: others => (c :: piece) :: others

def partsOf (cs : List Char) : List String :=
  ((splitSlashes cs).map String.ofList).filter fun s => s != "" && s != "."

/-- Exactly two slashes in front are a root of their own. -/
def rootOf (cs : List Char) : String :=
  match (cs.takeWhile (· == '/')).length with
  | 0 => ""
  | 2 => "//"
  | _ => "/"

namespace Path

def ofText (s : String) : Path := ⟨rootOf s.toList, partsOf s.toList⟩

/-- A path seen from another; one with a root does not depend on it. -/
def join (p q : Path) : Path := if q.root = "" then ⟨p.root, p.parts ++ q.parts⟩ else q

def text (p : Path) : String :=
  if p.root = "" && p.parts.isEmpty then "." else p.root ++ "/".intercalate p.parts

def parent (p : Path) : Path := { p with parts := p.parts.dropLast }

/-- The places that a path leads over, from where it starts. -/
def places (p : Path) (here : List String) : List (List String) :=
  p.parts.scanl (fun place name => if name = ".." then place.dropLast else place ++ [name])
    (if p.root = "" then here else [])

def name (p : Path) : String := p.parts.getLast?.getD ""

def withName (p : Path) (name : String) : Path := { p with parts := p.parts.dropLast ++ [name] }

end Path
end PETriage.Files
