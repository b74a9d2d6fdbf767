import PETriage.Cache.Basic
import PETriage.External.Analyzer
import PETriage.Request.Chunks
import PETriage.Request.Report

/-!
# Analysis of one file

A file is classified by its first bytes; one that is no image is hashed. An image is looked
up in the cache, and otherwise read and analyzed in the way that its size allows: directly,
by an external analyzer, or, when it is large and there is none, from its front alone.
Whatever goes wrong becomes a report, and progress always ends at a hundred.
-/
namespace PETriage.Request

open Report (Analysis)
open External (Analyzer)

/-- What takes the pieces of a file that is no image; a broken one reads none of them. -/
inductive Hasher
  | ofPieces (hash : List ByteArray → Hashes)
  | broken (reason : String)

/-- What stays the same between requests. -/
structure Setup (σ : Type) where
  config : Config
  external : Option Analyzer := none
  cache : Option (Cache σ) := none
  hasher : Hasher := .ofPieces Hashes.ofPieces
  /-- How many calls may be open at once while the payload of an external analyzer is copied. -/
  room : Option Nat := none

structure Ask where
  around : Surroundings
  forceFull : Bool := false
  key : Option String := none

def Ask.size (ask : Ask) : Nat := ask.around.source.size

def Ask.usableKey (ask : Ask) : Option String := ask.key.filter (· != "")

def degradedMessage : String :=
  "Large PE file: Only header information analyzed. " ++
    "Full section analysis would be too resource-intensive."

/-! ## Classification -/

inductive Front
  | hashed (hashes : Hashes)
  | image (large : Bool)
  /-- An image whose size has no place beside the threshold. -/
  | unsized (reason : String)

def hashSource {σ : Type} (setup : Setup σ) (w : Surroundings) : Step Hashes := do
  pause
  match setup.hasher with
  | .broken reason => throw (.broken reason)
  | .ofPieces hash => return hash (← allPieces w setup.config.readChunkSize)

def classify {σ : Type} (setup : Setup σ) (w : Surroundings) : Step Front := do
  let head ← readAt w 0 Image.classifyLength
  emit w 10
  if Image.startsAsImage head then
    match setup.config.isLarge w.source.size with
    | .error reason => return .unsized reason
    | .ok large =>
      emit w 20
      return .image large
  else return .hashed (← hashSource setup w)

/-! ## Ways of analysis -/

def reportSpan (w : Surroundings) (done total : Int) : Step Unit :=
  emit w (spanValue 40 60 done total)

def readAll (config : Config) (w : Surroundings) : Step ByteArray :=
  readChunked w 0 w.source.size config.readChunkSize (reportSpan w)

/-- The analysis of an external analyzer, if there is one and it does not fail. -/
def tryExternal {σ : Type} (setup : Setup σ) (w : Surroundings) (b : ByteArray) :
    Step (Option Analysis) := do
  match setup.external with
  | none => return none
  | some a =>
    match ← a.run b setup.config.externalTimeout with
    | .error _ => return none
    | .ok o =>
      let analysis ←
        Step.ofExcept .unnormalized (Analysis.ofPayload o (some w.source.size) setup.room)
      return some analysis

def stopOfFault : Direct.Fault → Stop
  | .header e => .undecodable e
  | .limit reason => .broken reason

/-- Parses a buffer and gives way once for each section. -/
def parseDirect (config : Config) (w : Surroundings) (b : ByteArray) (request : Direct.Request) :
    Step Analysis := do
  let cap := request.sectionCap.map fun _ => config.givenCap
  let r ← Step.ofExcept stopOfFault (Direct.parseGiven config cap b request)
  pauses r.sections.length
  emit w 70
  return Analysis.ofDirect r

def directFull (config : Config) (w : Surroundings) (b : ByteArray) :
    Step (Analysis × Strategy) := do
  let size : Int := w.source.size
  let analysis ← parseDirect config w b { fileSize := some size, forceFull := true }
  return (analysis, .direct)

/-- The analysis of the front of a file, marked as no more than that. -/
def degraded (config : Config) (w : Surroundings) (b : ByteArray) :
    Step (Analysis × Strategy) := do
  let size : Int := w.source.size
  let analysis ← parseDirect config w b
    { fileSize := some size, largeFile := true, sectionCap := some config.degradedSectionCap }
  return ({ analysis with error := some degradedMessage }, .degraded)

def analyzeSmall {σ : Type} (setup : Setup σ) (w : Surroundings) :
    Step (Analysis × Strategy) := do
  let b ← readAll setup.config w
  let given ← if setup.config.delegateSmallFiles then tryExternal setup w b else pure none
  match given with
  | some analysis =>
    emit w 70
    return (analysis, .external)
  | none => directFull setup.config w b

def isAvailable (external : Option Analyzer) : Bool := external.any (·.available)

/-- What is left to do for a large file that no external analyzer dealt with, of which all the
bytes may have been read already. -/
def analyzeAlone {σ : Type} (setup : Setup σ) (w : Surroundings) (forceFull : Bool)
    (whole : Option ByteArray) : Step (Analysis × Strategy) := do
  if forceFull then
    let b ← match whole with
      | some b => pure b
      | none => readAll setup.config w
    directFull setup.config w b
  else
    let front ← match whole with
      | some b => pure (Bytes.window b 0 (← Step.ofExcept .broken setup.config.frontEnd))
      | none =>
        readChunked w 0 setup.config.headerChunkSize setup.config.readChunkSize (reportSpan w)
    degraded setup.config w front

def analyzeLarge {σ : Type} (setup : Setup σ) (w : Surroundings) (forceFull : Bool) :
    Step (Analysis × Strategy) := do
  if isAvailable setup.external then
    let b ← readAll setup.config w
    match ← tryExternal setup w b with
    | some analysis =>
      emit w 70
      return (analysis, .external)
    | none => analyzeAlone setup w forceFull (some b)
  else analyzeAlone setup w forceFull none

def analyzeImage {σ : Type} (setup : Setup σ) (ask : Ask) (large : Bool) :
    Step (Analysis × Strategy) := do
  emit ask.around 30
  let result ←
    if large then analyzeLarge setup ask.around ask.forceFull else analyzeSmall setup ask.around
  emit ask.around 85
  return result

/-! ## A whole request -/

/-- A request up to the point where its analysis may be stored. -/
structure Prepared where
  report : ScanReport
  trace : Trace
  toStore : Option (String × Analysis) := none

structure Outcome where
  report : ScanReport
  trace : Trace

/-- The analysis kept under the key of a request; a lookup that fails finds nothing. -/
def lookup {σ : Type} (setup : Setup σ) (ask : Ask) (store : σ) : Option Analysis × σ :=
  match setup.cache, ask.usableKey with
  | some cache, some key =>
    let (found, store) := cache.get key store
    ((found.toOption).join, store)
  | _, _ => (none, store)

def prepareImage {σ : Type} (setup : Setup σ) (ask : Ask) (large : Bool) (t : Trace) : Prepared :=
  match (analyzeImage setup ask large).run t with
  | (.error stop, t) => ⟨.stopped ask.size true large stop.message, t, none⟩
  | (.ok (analysis, strategy), t) =>
    { report := {
        fileSize := ask.size
        isImage := true
        isLarge := large
        strategy := strategy
        analysis := some analysis
        error := analysis.error }
      trace := t
      toStore :=
        if analysis.isDegraded then none else ask.usableKey.map fun key => (key, analysis) }

def prepare {σ : Type} (setup : Setup σ) (ask : Ask) (store : σ) : Prepared × σ :=
  match (classify setup ask.around).run {} with
  | (.error stop, t) => (⟨.stopped ask.size false false stop.message, t, none⟩, store)
  | (.ok (.hashed hashes), t) =>
    (⟨{ fileSize := ask.size, hashes := some hashes }, t, none⟩, store)
  | (.ok (.unsized reason), t) =>
    (⟨.stopped ask.size true false (Stop.broken reason).message, t, none⟩, store)
  | (.ok (.image large), t) =>
    match lookup setup ask store with
    | (some found, store) =>
      (⟨{ fileSize := ask.size, isImage := true, isLarge := large, strategy := .cached,
          analysis := some found }, t, none⟩, store)
    | (none, store) => (prepareImage setup ask large t, store)

/-- Stores what a request is to store; only a cache that breaks down spoils the report. -/
def settle {σ : Type} (setup : Setup σ) (ask : Ask) (p : Prepared) (store : σ) : Outcome × σ :=
  let (report, store) := match setup.cache, p.toStore with
    | some cache, some (key, analysis) =>
      match cache.put key analysis store with
      | (.error (.broken reason), store) =>
        (ScanReport.stopped ask.size p.report.isImage p.report.isLarge (Stop.broken reason).message,
          store)
      | (_, store) => (p.report, store)
    | _, _ => (p.report, store)
  (⟨report, ((emit ask.around 100).run p.trace).2⟩, store)

def analyze {σ : Type} (setup : Setup σ) (ask : Ask) (store : σ) : Outcome × σ :=
  let (p, store) := prepare setup ask store
  settle setup ask p store

end PETriage.Request
