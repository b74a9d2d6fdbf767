import PETriage.Cache.Memory
import PETriage.Proofs.Report.Normalized
import PETriage.Proofs.Request.Storing

/-!
# A request beside the cache in memory

Nothing keeps the cache in memory from storing, so a request leaves its report as it was
prepared, and an entry with what it finished. What it stores is in canonical form.
-/
namespace PETriage.Request

open Report (Analysis)
open Cache.Memory (Entries)

/-! ## Analyses that may be stored -/

section Canonical

variable {σ : Type}

theorem size_nonneg (source : Source) : ∀ n ∈ some (source.size : Int), 0 ≤ n := by
  rintro n ⟨⟩
  exact Int.natCast_nonneg _

theorem parseDirect_canonical (config : Config) (w : Surroundings) (b : ByteArray)
    {request : Direct.Request} (hs : ∀ n ∈ request.fileSize, 0 ≤ n) :
    (parseDirect config w b request).Ensures Analysis.Canonical := by
  unfold parseDirect
  refine (Step.Ensures.ofExcept fun r hr => Direct.parseGiven_parsed hr).bind fun r hr => ?_
  refine Step.Ensures.after fun _ => Step.Ensures.after fun _ => Step.Ensures.pure ?_
  exact Report.ofDirect_canonical hr hs

theorem tryExternal_canonical (setup : Setup σ) (w : Surroundings) (b : ByteArray) :
    (tryExternal setup w b).Ensures fun given => ∀ a, given = some a → a.Canonical := by
  refine (tryExternal_madeFrom setup w b).mono fun given h a ha => ?_
  cases h a ha with
  | external hx hi hp hv ha =>
    exact Report.assemble_canonical (Report.ofPayload_eq_ok_iff.1 ha).2 (size_nonneg w.source)

theorem analyzeImage_canonical (setup : Setup σ) (ask : Ask) (large : Bool) :
    (analyzeImage setup ask large).Ensures fun r => r.1.Canonical := by
  have hsize := size_nonneg ask.around.source
  refine analyzeImage_ensures_of (fun _ b => ?_) (fun _ _ b => ?_) fun _ b => ?_
  · exact (parseDirect_canonical _ _ _ hsize).bind fun a hc => Step.Ensures.pure hc
  · refine (parseDirect_canonical _ _ _ hsize).bind fun a hc => Step.Ensures.pure ?_
    have hmessage : degradedMessage ≠ "" := by decide
    exact { hc with error := fun h => hmessage (Text.ofString_inj.1 (Option.some.inj h)) }
  · exact tryExternal_canonical setup ask.around b

/-- The report of an analysis that was made, and not found. -/
theorem prepareImage_made (setup : Setup σ) (ask : Ask) (large : Bool) (t : Trace) :
    (prepareImage setup ask large t).report.strategy ≠ .cached ∧
    ((prepareImage setup ask large t).report.Finished →
      ∃ a, (prepareImage setup ask large t).report.analysis = some a ∧ a.Canonical) := by
  have hreached := analyzeImage_ensures setup ask large t
  have hcanonical := analyzeImage_canonical setup ask large t
  unfold prepareImage
  generalize (analyzeImage setup ask large).run t = s at hreached hcanonical ⊢
  rcases s with ⟨stop | ⟨a, way⟩, t'⟩
  · exact ⟨nofun, fun h => absurd h (not_finished_of_strategy ⟨nofun, nofun⟩)⟩
  · refine ⟨?_, fun _ => ⟨a, rfl, hcanonical _ rfl⟩⟩
    rintro rfl
    rcases (hreached _ rfl).ways with h | h | h
    · cases h
    · cases h
    · cases h

/-- Whether a size has a place beside the threshold is a matter of the threshold alone. -/
theorem isLarge_ok_of_ok {config : Config} {m : Nat} {large : Bool}
    (h : config.isLarge m = .ok large) (n : Nat) : ∃ large, config.isLarge n = .ok large := by
  unfold Config.isLarge at *
  generalize config.givenThreshold = threshold at *
  cases threshold with
  | int _ => exact ⟨_, rfl⟩
  | bool _ => exact ⟨_, rfl⟩
  | float _ => exact ⟨_, rfl⟩
  | null => cases h
  | str _ => cases h
  | list _ => cases h
  | object _ => cases h

end Canonical

/-! ## Requests one after another -/

/-- A request, and what the external analyzer and the hasher do while it is served. -/
structure Turn where
  ask : Ask
  external : Option External.Analyzer := none
  hasher : Hasher := .ofPieces Hashes.ofPieces

structure Served where
  ask : Ask
  report : ScanReport
  before : Entries
  after : Entries

def Turn.setup (config : Config) (turn : Turn) : Setup Entries where
  config := config
  external := turn.external
  cache := some Cache.Memory.cache
  hasher := turn.hasher

def Turn.serve (config : Config) (turn : Turn) (entries : Entries) : Served :=
  let served := analyze (turn.setup config) turn.ask entries
  ⟨turn.ask, served.1.report, entries, served.2⟩

/-- Serves requests in order, from the entries that there are before the first. -/
def serveAll (config : Config) : List Turn → Entries → List Served
  | [], _ => []
  | turn :: rest, entries =>
    let served := turn.serve config entries
    served :: serveAll config rest served.after

/-! ## One request -/

section Serve

variable {config : Config} {turn : Turn} {entries : Entries}

def found? (ask : Ask) (entries : Entries) : Option Analysis :=
  ask.usableKey.bind fun key => (Cache.Memory.lookup entries key).toOption.join

theorem lookup_memory (config : Config) (turn : Turn) (entries : Entries) :
    lookup (turn.setup config) turn.ask entries = (found? turn.ask entries, entries) := by
  unfold lookup found?
  cases turn.ask.usableKey with
  | none => rfl
  | some key =>
    show (((Cache.Memory.lookup entries key).mapError _).toOption.join, entries) = _
    rw [Option.bind_some]
    cases Cache.Memory.lookup entries key with
    | error e => rfl
    | ok a => rfl

theorem prepare_memory_store (config : Config) (turn : Turn) (entries : Entries) :
    (prepare (turn.setup config) turn.ask entries).2 = entries := by
  have hexit := prepare_exit (turn.setup config) turn.ask entries
  generalize prepare (turn.setup config) turn.ask entries = p at hexit ⊢
  cases hexit with
  | early report t hs hi => rfl
  | found large a t hi hl hf => rw [lookup_memory]
  | analyzed large t hi hl hf => rw [lookup_memory]

theorem settle_memory (config : Config) (turn : Turn) (p : Prepared) (entries : Entries) :
    (settle (turn.setup config) turn.ask p entries).1.report = p.report ∧
    (settle (turn.setup config) turn.ask p entries).2 =
      p.toStore.elim entries fun entry => entries.put entry.1 entry.2.essential := by
  obtain ⟨report, t, toStore⟩ := p
  cases toStore with
  | none => exact ⟨rfl, rfl⟩
  | some entry => exact ⟨rfl, rfl⟩

def Served.stored (e : Served) : Option (String × Analysis) :=
  e.report.finished?.bind fun a => e.ask.usableKey.map fun key => (key, a)

theorem serve_report (config : Config) (turn : Turn) (entries : Entries) :
    (turn.serve config entries).report =
      (prepare (turn.setup config) turn.ask entries).1.report :=
  (settle_memory config turn _ _).1

theorem serve_after (config : Config) (turn : Turn) (entries : Entries) :
    (turn.serve config entries).after =
      (turn.serve config entries).stored.elim entries fun entry =>
        entries.put entry.1 entry.2.essential := by
  have hserve : (turn.serve config entries).after =
      (settle (turn.setup config) turn.ask (prepare (turn.setup config) turn.ask entries).1
        (prepare (turn.setup config) turn.ask entries).2).2 := rfl
  rw [hserve, (settle_memory _ _ _ _).2, prepare_memory_store, prepare_toStore, ← serve_report]
  rfl

/-- How a request ends: without a lookup, with what the lookup found, or with an analysis. -/
inductive Ending (config : Config) (ask : Ask) (entries : Entries) (r : ScanReport) : Prop
  | early (hi : ask.IsImage → ∃ reason, config.isLarge ask.size = .error reason)
      (hs : r.strategy ≠ .cached) (hf : ¬r.Finished)
  | found (large : Bool) (a : Analysis) (hi : ask.IsImage)
      (hl : config.isLarge ask.size = .ok large) (ha : found? ask entries = some a)
      (hs : r.strategy = .cached) (hr : r.analysis = some a)
  | made (large : Bool) (hl : config.isLarge ask.size = .ok large)
      (hn : found? ask entries = none) (hs : r.strategy ≠ .cached)
      (hf : r.Finished → ∃ a, r.analysis = some a ∧ a.Canonical)

theorem serve_ending (config : Config) (turn : Turn) (entries : Entries) :
    Ending config turn.ask entries (turn.serve config entries).report := by
  have hexit := prepare_exit (turn.setup config) turn.ask entries
  rw [serve_report]
  generalize prepare (turn.setup config) turn.ask entries = p at hexit ⊢
  cases hexit with
  | early report t hs hi =>
    exact .early hi (strategy_ne_of_early hs (by decide)) (not_finished_of_early hs)
  | found large a t hi hl hf =>
    rw [lookup_memory] at hf
    exact .found large a hi hl hf rfl rfl
  | analyzed large t hi hl hf =>
    rw [lookup_memory] at hf
    obtain ⟨hs, hc⟩ := prepareImage_made (turn.setup config) turn.ask large t
    exact .made large hl hf hs hc

theorem Ending.of_cached {ask : Ask} {r : ScanReport} (h : Ending config ask entries r)
    (hs : r.strategy = .cached) :
    ask.IsImage ∧ ∃ a, found? ask entries = some a ∧ r.analysis = some a := by
  cases h with
  | early hi hne hf => exact absurd hs hne
  | found large a hi hl ha hs' hr => exact ⟨hi, a, ha, hr⟩
  | made large hl hn hne hf => exact absurd hs hne

theorem Ending.cached {ask : Ask} {r : ScanReport} {large : Bool} {a : Analysis}
    (h : Ending config ask entries r) (hi : ask.IsImage)
    (hl : config.isLarge ask.size = .ok large) (ha : found? ask entries = some a) :
    r.strategy = .cached := by
  cases h with
  | early himage hs hf =>
    obtain ⟨reason, hr⟩ := himage hi
    cases hl.symm.trans hr
  | found large a hi hl ha hs hr => exact hs
  | made large hl hn hs hf => cases hn.symm.trans ha

theorem Ending.of_finished {ask : Ask} {r : ScanReport} (h : Ending config ask entries r)
    (hf : r.Finished) :
    found? ask entries = none ∧ (∃ large, config.isLarge ask.size = .ok large) ∧
      ∃ a, r.analysis = some a ∧ a.Canonical := by
  cases h with
  | early hi hs hn => exact absurd hf hn
  | found large a hi hl ha hs hr =>
    have hnot : ¬r.Finished := not_finished_of_strategy (by rw [hs]; decide)
    exact absurd hf hnot
  | made large hl hn hs hc => exact ⟨hn, ⟨large, hl⟩, hc hf⟩

end Serve

end PETriage.Request
