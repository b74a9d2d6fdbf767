import PETriage.Config.Seconds
import PETriage.Number.Reading
import PETriage.Statistics.Given
import PETriage.Text.Case

/-!
# Thresholds and limits

Sizes above which a file or a section counts as large, the sizes of reads, and how many
sections are taken. Each setting can be given in the environment; a text that does not
read leaves the setting as it is, and the whole is then checked.
-/
namespace PETriage

inductive ConfigError
  | sizesNotPositive
  | thresholdBelowSample
  | capsBelowOne
  | incomparable (reason : String)
  | unknownSetting (name : String)
  deriving DecidableEq, Repr

def ConfigError.message : ConfigError → String
  | sizesNotPositive => "sample_size, read_chunk_size and header_chunk_size must be positive"
  | thresholdBelowSample => "large_section_threshold must be >= sample_size"
  | capsBelowOne => "section caps must be at least 1"
  | incomparable reason => reason
  | unknownSetting name => "unknown setting " ++ name

def megabyte : Nat := 1048576
def kilobyte : Nat := 1024

structure Config where
  largeFileThreshold : Int := 50 * megabyte
  headerChunkSize : Int := 5 * megabyte
  largeSectionThreshold : Int := megabyte
  sampleSize : Int := 100 * kilobyte
  readChunkSize : Int := 64 * kilobyte
  degradedSectionCap : Int := 5
  maxSections : Int := 96
  externalTimeout : Seconds := .real 120.0
  delegateSmallFiles : Bool := false
  externalAnalyzer : Option Text := some "pefile"
  /-- Settings of another kind than theirs, by name and as they were given. -/
  loose : Keyed String := []

namespace Config

def limits (c : Config) : Statistics.Limits := ⟨c.largeSectionThreshold, c.sampleSize⟩

def given (c : Config) (name : String) (usual : Value) : Value := (c.loose.get? name).getD usual

theorem given_of_loose_nil {c : Config} (h : c.loose = []) (name : String) (v : Value) :
    c.given name v = v := by
  simp [given, h, Keyed.get?]

def givenThreshold (c : Config) : Value :=
  c.given "large_file_threshold" (.int c.largeFileThreshold)
def givenHeaderChunk (c : Config) : Value := c.given "header_chunk_size" (.int c.headerChunkSize)
def givenSectionThreshold (c : Config) : Value :=
  c.given "large_section_threshold" (.int c.largeSectionThreshold)
def givenSample (c : Config) : Value := c.given "sample_size" (.int c.sampleSize)
def givenReadChunk (c : Config) : Value := c.given "read_chunk_size" (.int c.readChunkSize)
def givenCap (c : Config) : Value := c.given "degraded_section_cap" (.int c.degradedSectionCap)
def givenSections (c : Config) : Value := c.given "max_sections" (.int c.maxSections)

/-- The first comparison that holds or fails decides. -/
def anyHolds (questions : List (Except String Bool)) : Except ConfigError Bool :=
  (questions.anyM id).mapError .incomparable

def check (c : Config) : Except ConfigError Config := do
  if ← anyHolds [c.givenSample.holds .atMost (.int 0), c.givenReadChunk.holds .atMost (.int 0),
      c.givenHeaderChunk.holds .atMost (.int 0)] then throw .sizesNotPositive
  if ← anyHolds [c.givenSectionThreshold.holds .less c.givenSample] then
    throw .thresholdBelowSample
  if ← anyHolds [c.givenCap.holds .less (.int 1), c.givenSections.holds .less (.int 1)] then
    throw .capsBelowOne
  return c

structure Valid (c : Config) : Prop where
  sample_pos : 0 < c.sampleSize
  read_pos : 0 < c.readChunkSize
  header_pos : 0 < c.headerChunkSize
  sample_le : c.sampleSize ≤ c.largeSectionThreshold
  degraded_pos : 1 ≤ c.degradedSectionCap
  sections_pos : 1 ≤ c.maxSections

/-- With every setting of its own kind the checks are comparisons of whole numbers. -/
theorem check_of_loose_nil {c : Config} (h : c.loose = []) :
    c.check =
      if c.sampleSize ≤ 0 ∨ c.readChunkSize ≤ 0 ∨ c.headerChunkSize ≤ 0 then
        .error .sizesNotPositive
      else if c.largeSectionThreshold < c.sampleSize then .error .thresholdBelowSample
      else if c.degradedSectionCap < 1 ∨ c.maxSections < 1 then .error .capsBelowOne
      else .ok c := by
  simp only [check, givenSample, givenReadChunk, givenHeaderChunk, givenSectionThreshold,
    givenCap, givenSections, given_of_loose_nil h, Value.holds_atMost_int, Value.holds_less_int]
  by_cases h1 : c.sampleSize ≤ 0 <;> by_cases h2 : c.readChunkSize ≤ 0 <;>
    by_cases h3 : c.headerChunkSize ≤ 0 <;>
    by_cases h4 : c.largeSectionThreshold < c.sampleSize <;>
    by_cases h5 : c.degradedSectionCap < 1 <;> by_cases h6 : c.maxSections < 1 <;>
    simp only [h1, h2, h3, h4, h5, h6, decide_true, decide_false, true_or, or_true, or_self,
      ↓reduceIte] <;> rfl

theorem check_eq_ok_iff {c d : Config} (hl : c.loose = []) :
    c.check = .ok d ↔ c = d ∧ c.Valid := by
  rw [check_of_loose_nil hl]
  constructor
  · intro h
    split at h
    · simp at h
    split at h
    · simp at h
    split at h
    · simp at h
    simp only [Except.ok.injEq] at h
    exact ⟨h, ⟨by omega, by omega, by omega, by omega, by omega, by omega⟩⟩
  · rintro ⟨rfl, h⟩
    obtain ⟨h1, h2, h3, h4, h5, h6⟩ := h
    split
    · omega
    split
    · omega
    split
    · omega
    rfl

def settingPrefix : String := "PEINSPECT_"

def readSwitch? (cs : List Char) : Option Bool :=
  let word := String.ofList (Text.lower (Text.trim cs))
  if ["1", "true", "yes", "on"].contains word then some true
  else if ["0", "false", "no", "off"].contains word then some false
  else none

def readSeconds? (cs : List Char) : Option Seconds := (Number.readReal? cs).map .real

def readName? (cs : List Char) : Option (Option Text) := some (some (String.ofList cs))

/-- The setting of this name, or the one given when it is absent, empty or does not read. -/
def setting {α : Type} (env : String → Option String) (name : String)
    (read? : List Char → Option α) (standard : α) : α :=
  match env (settingPrefix ++ name) with
  | none => standard
  | some raw => if raw = "" then standard else (read? raw.toList).getD standard

def parsedFrom (env : String → Option String) : Config :=
  let standard : Config := {}
  { largeFileThreshold :=
      setting env "LARGE_FILE_THRESHOLD" Number.readInteger? standard.largeFileThreshold
    headerChunkSize :=
      setting env "HEADER_CHUNK_SIZE" Number.readInteger? standard.headerChunkSize
    largeSectionThreshold :=
      setting env "LARGE_SECTION_THRESHOLD" Number.readInteger? standard.largeSectionThreshold
    sampleSize := setting env "SAMPLE_SIZE" Number.readInteger? standard.sampleSize
    readChunkSize := setting env "READ_CHUNK_SIZE" Number.readInteger? standard.readChunkSize
    degradedSectionCap :=
      setting env "DEGRADED_SECTION_CAP" Number.readInteger? standard.degradedSectionCap
    maxSections := setting env "MAX_SECTIONS" Number.readInteger? standard.maxSections
    externalTimeout := setting env "EXTERNAL_TIMEOUT" readSeconds? standard.externalTimeout
    delegateSmallFiles :=
      setting env "DELEGATE_SMALL_FILES" readSwitch? standard.delegateSmallFiles
    externalAnalyzer := setting env "EXTERNAL_ANALYZER" readName? standard.externalAnalyzer }

def settingNames : List String :=
  ["LARGE_FILE_THRESHOLD", "HEADER_CHUNK_SIZE", "LARGE_SECTION_THRESHOLD", "SAMPLE_SIZE",
    "READ_CHUNK_SIZE", "DEGRADED_SECTION_CAP", "MAX_SECTIONS", "EXTERNAL_TIMEOUT",
    "DELEGATE_SMALL_FILES", "EXTERNAL_ANALYZER"].map (settingPrefix ++ ·)

def ofEnvironment (env : String → Option String) : Except ConfigError Config :=
  (parsedFrom env).check

def withNumber (c : Config) (n : Int) : String → Option Config
  | "large_file_threshold" => some { c with largeFileThreshold := n }
  | "header_chunk_size" => some { c with headerChunkSize := n }
  | "large_section_threshold" => some { c with largeSectionThreshold := n }
  | "sample_size" => some { c with sampleSize := n }
  | "read_chunk_size" => some { c with readChunkSize := n }
  | "degraded_section_cap" => some { c with degradedSectionCap := n }
  | "max_sections" => some { c with maxSections := n }
  | _ => none

/-- The name that an analyzer is looked up by; none stands for any that is available. -/
def analyzerName : Value → Option Text
  | .null => none
  | .str t => some t
  | v => some v.kind

/-- Keeps a value that is of another kind than its setting. -/
def keep (c : Config) (name : String) (v : Value) (usual : Bool) : Config :=
  { c with loose := if usual then c.loose.filter (·.1 != name) else c.loose.put name v }

def isInt : Value → Bool
  | .int _ => true
  | _ => false

/-- Sets the setting of this name. A size of another kind counts as the whole number that is
not below it. -/
def assign (c : Config) : String × Value → Except ConfigError Config
  | ("external_timeout", v) => .ok { c with externalTimeout := .ofValue v }
  | ("delegate_small_files", v) =>
    .ok ({ c with delegateSmallFiles := v.counts }.keep "delegate_small_files" v (v.kind == "bool"))
  | ("external_analyzer", v) =>
    .ok ({ c with externalAnalyzer := analyzerName v }.keep "external_analyzer" v
      (v == Value.null || v.text?.isSome))
  | (name, v) =>
    match c.withNumber ((v.number?.map (·.ceiling)).getD 0) name with
    | some d => .ok (d.keep name v (isInt v))
    | none => .error (.unknownSetting name)

def assignAll (c : Config) (settings : Keyed String) : Except ConfigError Config :=
  settings.foldlM assign c

/-- The configuration with some settings replaced, checked again. -/
def withSettings (c : Config) (settings : Keyed String) : Except ConfigError Config := do
  (← c.assignAll settings).check

def toValue (c : Config) : Value := .object [
  ("large_file_threshold", c.givenThreshold),
  ("header_chunk_size", c.givenHeaderChunk),
  ("large_section_threshold", c.givenSectionThreshold),
  ("sample_size", c.givenSample),
  ("read_chunk_size", c.givenReadChunk),
  ("degraded_section_cap", c.givenCap),
  ("max_sections", c.givenSections),
  ("external_timeout", c.externalTimeout.toValue),
  ("delegate_small_files", c.given "delegate_small_files" (.bool c.delegateSmallFiles)),
  ("external_analyzer", c.given "external_analyzer" (.orNull .str c.externalAnalyzer))]

/-! ## What the settings decide -/

def isLarge (c : Config) (size : Nat) : Except String Bool :=
  (Value.nat size).holds .greater c.givenThreshold

/-- The measure of a section, of all of it or under the limits for a large file. -/
def measure (c : Config) (b : ByteArray) (whole : Bool) : Except String Statistics.Measure :=
  Statistics.measureGiven b whole c.givenSectionThreshold c.givenSample

theorem measure_of_loose_nil {c : Config} (h : c.loose = []) (b : ByteArray) (whole : Bool) :
    c.measure b whole = .ok (Statistics.measure b whole c.limits) := by
  simp [measure, givenSectionThreshold, givenSample, given_of_loose_nil h,
    Statistics.measureGiven, limits]

theorem isLarge_of_loose_nil {c : Config} (h : c.loose = []) (size : Nat) :
    c.isLarge size = .ok (decide (c.largeFileThreshold < size)) := by
  simp [isLarge, givenThreshold, given_of_loose_nil h, Value.nat, Value.holds_greater_int]

/-- How many of `count` sections are taken at most, under a cap of their own. -/
def rowLimit (c : Config) (cap : Option Value) (count : Nat) : Except String Int := do
  let limit ← match cap with
    | none => pure c.givenSections
    | some cap => c.givenSections.lesser cap
  (← (Value.nat count).lesser limit).countBound

/-- Where the front of a file ends that is taken out of all its bytes. -/
def frontEnd (c : Config) : Except String Int := c.givenHeaderChunk.windowBound

end Config
end PETriage
