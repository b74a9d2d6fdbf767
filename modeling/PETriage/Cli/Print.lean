import PETriage.Request.Report
import PETriage.Threat.Indicators

/-!
# Reports as text

The lines that a report is shown as: what the file is, its sections and imports, what looks
suspicious, and the threat score.
-/
namespace PETriage.Cli

open Report (Analysis SectionEntry Import)
open Request (ScanReport)

def nameWidth : Nat := 8

def padded (t : Text) : Text :=
  t ++ String.ofList (List.replicate (nameWidth - t.length) ' ')

def sectionLine (s : SectionEntry) : Text :=
  if s.isPlaceholder then "  " ++ s.name
  else
    "  " ++ padded s.name ++ " va=" ++ s.address ++ " vsize=" ++ Number.decimal s.virtualSize ++
      " raw=" ++ Number.decimal s.rawSize ++ " entropy=" ++ s.entropy ++ " (" ++
      Statistics.entropyLabel (s.entropyValue?.getD 0.0) ++ ") chi2=" ++ s.chiSquare

def sectionLines (sections : List SectionEntry) : List Text :=
  if sections.isEmpty then [] else "Sections:" :: sections.map sectionLine

def formatLines : Option Image.OptionalHeader → List Text
  | none => []
  | some h =>
    ["Format: " ++ h.magic ++ "  Subsystem: " ++ h.subsystem ++ "  Entry point: " ++
      Number.hex h.entryPoint]

def importLine (i : Import) : Text :=
  "Import: " ++ i.library ++ " (" ++ Number.decimal i.functions.length ++ " functions)"

def indicatorLine (i : Threat.Indicator) : Text :=
  "[" ++ i.severity.name ++ "] " ++ i.title ++ ": " ++ i.description

def threatLine (t : Threat.Assessment) : Text :=
  "Threat: " ++ t.level.name ++ " (score=" ++ Number.decimal t.score ++ ") - " ++ t.level.summary

/-- The lines of what can be judged. -/
def judgedLines {α : Type} (lines : α → List Text) : Threat.Judged α → List Text
  | .ok a => lines a
  | .error _ => []

def analysisLines (a : Analysis) : List Text :=
  ["Machine: " ++ a.machine, "Timestamp: " ++ a.timestamp] ++
    formatLines a.optional ++
    sectionLines a.sections ++
    (a.imports.getD []).map importLine ++
    judgedLines (·.map indicatorLine) (Threat.indicators a) ++
    judgedLines (fun t => [threatLine t]) (Threat.assess (some a) [])

def hashLine (h : String × String) : Text := "  " ++ h.1 ++ ": " ++ h.2

def reportLines (r : ScanReport) : List Text :=
  ("File size: " ++ Number.decimal r.fileSize ++ " bytes") ::
    if r.isImage then
      ("Strategy: " ++ r.strategy.name ++ (if r.isLarge then " (large file)" else "")) ::
        (r.analysis.map analysisLines).getD []
    else "Not a PE file" :: (r.hashes.getD []).map hashLine

/-- What went wrong or was left out in the analysis of an image. -/
def noteLines (r : ScanReport) : List Text :=
  if r.isImage then
    match r.analysis.bind (·.error) with
    | some error => if error = "" then [] else ["Note: " ++ error]
    | none => []
  else []

/-- The report as an object, without the parts that are absent. -/
def reportValue (r : ScanReport) : Value := .object <|
  ([("file_size", .nat r.fileSize), ("is_pe", .bool r.isImage),
    ("is_large_file", .bool r.isLarge), ("strategy", .str r.strategy.name)] : Fields) ++
  Analysis.part "analysis" Analysis.toValue r.analysis ++
  Analysis.part "hashes" Hashes.toValue r.hashes ++ Analysis.part "error" .str r.error

end PETriage.Cli
