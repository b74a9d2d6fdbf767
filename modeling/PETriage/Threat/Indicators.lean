import PETriage.Threat.Score

/-!
# What looks suspicious in an analysis

Single observations, each with a severity of its own: packed content, imports that inject
code, a large section of nearly constant bytes, and section names out of the ordinary.
-/
namespace PETriage.Threat

open Report (Analysis SectionEntry)

structure Indicator where
  title : String
  description : Text
  severity : Level
  deriving DecidableEq, Repr

/-- The first section whose entropy passes; those after it are not asked. -/
def firstByEntropy? (test : Float → SectionEntry → Bool) :
    List SectionEntry → Judged (Option SectionEntry)
  | [] => .ok none
  | s :: rest => do
    let x ← entropyOf s
    if test x s then return some s else firstByEntropy? test rest

def injectionWords : List String := ["inject", "memory", "remote", "process", "write"]

def isInjection (name : Text) : Bool :=
  name.pieces.any fun s =>
    let letters := Text.lower s.toList
    injectionWords.any fun word => Text.occurs word.toList letters

def commonSections : List Text :=
  [".text", ".code", "CODE", "INIT", ".init", ".data", ".rdata", ".rsrc"]

def lowEntropy : Float := 0.5
def lowEntropySize : Int := 1024

def packedIndicator (s : SectionEntry) : Indicator where
  title := "Possible packed/encrypted content"
  description := "Section \"" ++ s.name ++ "\" has high entropy (" ++ s.entropy ++
    "), suggesting possible packing or encryption."
  severity := .high

def injectionIndicator : Indicator where
  title := "Suspicious API imports"
  description := "This executable imports functions commonly used for code/DLL injection " ++
    "or memory manipulation."
  severity := .medium

def constantIndicator (s : SectionEntry) : Indicator where
  title := "Unusual section entropy"
  description := "Section \"" ++ s.name ++
    "\" has unusually low entropy, which could indicate large blocks of the same byte."
  severity := .low

def namesIndicator (names : List Text) : Indicator where
  title := "Unusual section names"
  description := "Found sections with uncommon names: " ++ Text.intercalate ", " names
  severity := .low

def realSections (a : Analysis) : List SectionEntry := a.sections.filter (!·.isPlaceholder)

def unusualNames (sections : List SectionEntry) : List Text :=
  (sections.map (·.name)).filter (!commonSections.contains ·)

def indicators (a : Analysis) : Judged (List Indicator) := do
  let sections := realSections a
  let packed ← firstByEntropy? (fun x _ => x > Statistics.highEntropy) sections
  let constant ←
    firstByEntropy? (fun x s => x < lowEntropy && s.rawSize > lowEntropySize) sections
  let unusual := unusualNames sections
  return (packed.map packedIndicator).toList ++
    (if (importedFunctions a).any isInjection then [injectionIndicator] else []) ++
    (constant.map constantIndicator).toList ++
    (if unusual.isEmpty then [] else [namesIndicator unusual])

end PETriage.Threat
