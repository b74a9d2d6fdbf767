import PETriage.Proofs.Request.Reports

/-!
# What a request stores

A request leaves before its analysis, with what was found in the cache, or with an analysis of
its own. Only the last stores anything, and then only what is reported as finished: a direct or
an external analysis without an error, under a key that is not empty.
-/
namespace PETriage.Request

open Report (Analysis)

variable {σ : Type} {setup : Setup σ} {ask : Ask} {store : σ}

/-- A full analysis was made, and nothing is wrong with it. -/
def ScanReport.Finished (r : ScanReport) : Prop :=
  (r.strategy = .direct ∨ r.strategy = .external) ∧ r.error = none

instance (r : ScanReport) : Decidable r.Finished := inferInstanceAs (Decidable (_ ∧ _))

def ScanReport.finished? (r : ScanReport) : Option Analysis :=
  if r.Finished then r.analysis else none

theorem not_finished_of_strategy {r : ScanReport}
    (h : r.strategy ≠ .direct ∧ r.strategy ≠ .external) : ¬r.Finished := by
  rintro ⟨hd | he, -⟩
  · exact h.1 hd
  · exact h.2 he

theorem strategy_ne_of_early {r : ScanReport} {s : Strategy}
    (h : r.strategy = .failed ∨ r.strategy = .notApplicable)
    (hs : s ≠ .failed ∧ s ≠ .notApplicable) : r.strategy ≠ s := by
  rintro rfl
  rcases h with h | h
  · exact hs.1 h
  · exact hs.2 h

theorem not_finished_of_early {r : ScanReport}
    (h : r.strategy = .failed ∨ r.strategy = .notApplicable) : ¬r.Finished :=
  not_finished_of_strategy
    ⟨strategy_ne_of_early h (by decide), strategy_ne_of_early h (by decide)⟩

/-! ## Exits -/

/-- How a request can come to the point where something is stored. -/
inductive Exit (setup : Setup σ) (ask : Ask) (store : σ) : Prepared × σ → Prop
  | early (report : ScanReport) (t : Trace)
      (hs : report.strategy = .failed ∨ report.strategy = .notApplicable)
      (hi : ask.IsImage → ∃ reason, setup.config.isLarge ask.size = .error reason) :
      Exit setup ask store (⟨report, t, none⟩, store)
  | found (large : Bool) (a : Analysis) (t : Trace) (hi : ask.IsImage)
      (hl : setup.config.isLarge ask.size = .ok large) (hf : (lookup setup ask store).1 = some a) :
      Exit setup ask store
        (⟨{ fileSize := ask.size, isImage := true, isLarge := large, strategy := .cached,
            analysis := some a }, t, none⟩, (lookup setup ask store).2)
  | analyzed (large : Bool) (t : Trace) (hi : ask.IsImage)
      (hl : setup.config.isLarge ask.size = .ok large) (hf : (lookup setup ask store).1 = none) :
      Exit setup ask store (prepareImage setup ask large t, (lookup setup ask store).2)

theorem prepare_exit (setup : Setup σ) (ask : Ask) (store : σ) :
    Exit setup ask store (prepare setup ask store) := by
  have hc := classify_run setup ask.around
  unfold prepare
  generalize (classify setup ask.around).run {} = s at hc ⊢
  rcases s with ⟨r, t⟩
  simp only at hc
  rw [hc]
  cases hread : ask.around.source.read 0 0 Image.classifyLength with
  | error fault => exact .early _ t (.inl rfl) fun hi => by simp [Ask.IsImage, hread] at hi
  | ok head =>
    cases hs : Image.startsAsImage head with
    | false =>
      have hi : ¬ask.IsImage := by simp [Ask.IsImage, hread, hs]
      simp only [hs, Bool.false_eq_true, ↓reduceIte]
      cases ((hashSource setup ask.around).run (headTrace ask.around head)).1 with
      | error stop => exact .early _ t (.inl rfl) fun h => absurd h hi
      | ok hashes => exact .early _ t (.inr rfl) fun h => absurd h hi
    | true =>
      have hi : ask.IsImage := ⟨head, hread, hs⟩
      simp only [hs, ↓reduceIte, frontOf]
      cases hl : setup.config.isLarge ask.around.source.size with
      | error reason => exact .early _ t (.inl rfl) fun _ => ⟨reason, hl⟩
      | ok large =>
        simp only
        have hanalyzed : (lookup setup ask store).1 = none → Exit setup ask store _ :=
          Exit.analyzed large t hi hl
        have hfound : ∀ a, (lookup setup ask store).1 = some a → Exit setup ask store _ :=
          fun a => Exit.found large a t hi hl
        generalize lookup setup ask store = found at hfound hanalyzed ⊢
        rcases found with ⟨_ | a, after⟩
        · exact hanalyzed rfl
        · exact hfound a rfl

/-- An analysis that is not degraded was made in full, and without an error. -/
theorem Reached.isDegraded_eq_false_iff {large : Bool} {a : Analysis} {way : Strategy}
    (h : Reached setup ask large a way) :
    a.isDegraded = false ↔ (way = .direct ∨ way = .external) ∧ a.error = none := by
  rw [Analysis.isDegraded, Option.isSome_eq_false_iff, Option.isNone_iff_eq_none]
  constructor
  · intro herror
    refine ⟨?_, herror⟩
    rcases h.ways with hway | hway | hway
    · exact .inl hway
    · exact .inr hway
    · have hdegraded := (h.degraded hway).2.2
      rw [herror] at hdegraded
      cases hdegraded
  · exact fun hfinished => hfinished.2

theorem prepareImage_toStore (setup : Setup σ) (ask : Ask) (large : Bool) (t : Trace) :
    (prepareImage setup ask large t).toStore =
      (prepareImage setup ask large t).report.finished?.bind fun a =>
        ask.usableKey.map fun key => (key, a) := by
  have hr := analyzeImage_ensures setup ask large t
  unfold prepareImage ScanReport.finished?
  generalize (analyzeImage setup ask large).run t = s at hr ⊢
  rcases s with ⟨stop | ⟨a, way⟩, t'⟩
  · have hstopped : ¬(ScanReport.stopped ask.size true large stop.message).Finished :=
      not_finished_of_strategy ⟨nofun, nofun⟩
    simp only [hstopped, ↓reduceIte, Option.bind_none]
  · have hiff : a.isDegraded = false ↔ (way = .direct ∨ way = .external) ∧ a.error = none :=
      (hr _ rfl).isDegraded_eq_false_iff
    cases hd : a.isDegraded with
    | false =>
      obtain ⟨hway, herror⟩ := hiff.1 hd
      simp only [ScanReport.Finished, hway, herror, hd, and_self, Bool.false_eq_true, ↓reduceIte,
        Option.bind_some]
    | true =>
      have hfinished : ¬((way = .direct ∨ way = .external) ∧ a.error = none) := by
        intro h
        rw [hiff.2 h] at hd
        cases hd
      simp only [ScanReport.Finished, hfinished, hd, ↓reduceIte, Option.bind_none]

theorem prepare_toStore (setup : Setup σ) (ask : Ask) (store : σ) :
    (prepare setup ask store).1.toStore =
      (prepare setup ask store).1.report.finished?.bind fun a =>
        ask.usableKey.map fun key => (key, a) := by
  have hexit := prepare_exit setup ask store
  generalize prepare setup ask store = p at hexit ⊢
  cases hexit with
  | early report t hs hi =>
    have hnone : report.finished? = none := if_neg (not_finished_of_early hs)
    rw [hnone, Option.bind_none]
  | found large a t hi hl hf => rfl
  | analyzed large t hi hl hf => exact prepareImage_toStore setup ask large t

/-! ## Requests that find nothing -/

def Setup.uncached (setup : Setup σ) : Setup σ := { setup with cache := none }

theorem prepare_of_miss (h : (lookup setup ask store).1 = none) :
    (prepare setup ask store).1 = (prepare setup.uncached ask store).1 := by
  have hclassify : classify setup.uncached ask.around = classify setup ask.around := rfl
  unfold prepare
  rw [hclassify]
  rcases (classify setup ask.around).run {} with ⟨stop | front, t⟩
  · rfl
  cases front with
  | hashed hashes => rfl
  | unsized reason => rfl
  | image large =>
    simp only
    generalize lookup setup ask store = found at h ⊢
    rcases found with ⟨_ | a, after⟩
    · rfl
    · cases h

theorem prepare_store_of_toStore {entry : String × Analysis}
    (h : (prepare setup ask store).1.toStore = some entry) :
    (prepare setup ask store).2 = (lookup setup ask store).2 := by
  have hexit := prepare_exit setup ask store
  generalize prepare setup ask store = p at hexit h
  cases hexit with
  | early report t hs hi => cases h
  | found large a t hi hl hf => rfl
  | analyzed large t hi hl hf => rfl

/-! ## A cache that breaks down -/

/-- The cache breaks down when the finished analysis of a report is put into it. -/
def BreaksDown (cache : Cache σ) (ask : Ask) (store : σ) (r : ScanReport) (reason : String) :
    Prop :=
  ∃ key a, ask.usableKey = some key ∧ r.finished? = some a ∧
    (cache.put key a store).1 = .error (.broken reason)

section Settle

variable {cache : Cache σ} {p : Prepared}

theorem settle_of_toStore_none (h : p.toStore = none) (setup : Setup σ) (ask : Ask) (store : σ) :
    (settle setup ask p store).1.report = p.report := by
  unfold settle
  cases setup.cache with
  | none => rfl
  | some cache => rw [h]

theorem settle_of_toStore {key : String} {a : Analysis} (hc : setup.cache = some cache)
    (h : p.toStore = some (key, a)) (ask : Ask) (store : σ) :
    (∀ reason, (cache.put key a store).1 = .error (.broken reason) →
      (settle setup ask p store).1.report =
        .stopped ask.size p.report.isImage p.report.isLarge (Stop.broken reason).message) ∧
    ((∀ reason, (cache.put key a store).1 ≠ .error (.broken reason)) →
      (settle setup ask p store).1.report = p.report) := by
  unfold settle
  rw [hc, h]
  simp only
  rcases cache.put key a store with ⟨⟨⟨why⟩ | ⟨why⟩⟩ | _, after⟩
  · exact ⟨nofun, fun _ => rfl⟩
  · refine ⟨?_, fun hn => absurd rfl (hn why)⟩
    rintro reason ⟨⟩
    rfl
  · exact ⟨nofun, fun _ => rfl⟩

end Settle

/-- A cache breaks down over what a request is to store, and over nothing else. -/
theorem breaksDown_iff (cache : Cache σ) (setup : Setup σ) (ask : Ask) (store after : σ)
    (reason : String) :
    BreaksDown cache ask after (prepare setup ask store).1.report reason ↔
      ∃ key a, (prepare setup ask store).1.toStore = some (key, a) ∧
        (cache.put key a after).1 = .error (.broken reason) := by
  rw [prepare_toStore]
  constructor
  · rintro ⟨key, a, hk, ha, h⟩
    refine ⟨key, a, ?_, h⟩
    rw [ha, Option.bind_some, hk, Option.map_some]
  · rintro ⟨key, a, hs, h⟩
    obtain ⟨a', ha, hkey⟩ := Option.bind_eq_some_iff.1 hs
    obtain ⟨key', hk, he⟩ := Option.map_eq_some_iff.1 hkey
    cases he
    exact ⟨key, a, hk, ha, h⟩

/-- After a lookup that finds nothing or fails, a request is reported as it is without a cache,
unless the cache breaks down over the finished analysis: then the analysis is lost, and the
request is reported as one that stopped. -/
theorem report_after_miss {cache : Cache σ} (hc : setup.cache = some cache)
    (hmiss : (lookup setup ask store).1 = none) :
    let plain := (analyze setup.uncached ask store).1.report
    let after := (lookup setup ask store).2
    ((∀ reason, ¬BreaksDown cache ask after plain reason) →
      (analyze setup ask store).1.report = plain) ∧
    ∀ reason, BreaksDown cache ask after plain reason →
      (analyze setup ask store).1.report =
        .stopped ask.size plain.isImage plain.isLarge (Stop.broken reason).message := by
  intro plain after
  have hplain : plain = (prepare setup ask store).1.report := by
    rw [prepare_of_miss hmiss]
    rfl
  have hsettle : (analyze setup ask store).1.report =
      (settle setup ask (prepare setup ask store).1 (prepare setup ask store).2).1.report := rfl
  simp only [hplain, breaksDown_iff, hsettle]
  cases ht : (prepare setup ask store).1.toStore with
  | none =>
    rw [settle_of_toStore_none ht setup ask]
    refine ⟨fun _ => rfl, ?_⟩
    rintro reason ⟨key, a, hs, -⟩
    cases hs
  | some entry =>
    obtain ⟨key, a⟩ := entry
    obtain ⟨hbroken, hkept⟩ := settle_of_toStore hc ht ask (prepare setup ask store).2
    rw [prepare_store_of_toStore ht] at hbroken hkept ⊢
    constructor
    · exact fun hn => hkept fun reason h => hn reason ⟨key, a, rfl, h⟩
    · rintro reason ⟨_, _, hs, h⟩
      cases hs
      exact hbroken reason h

/-- A 32-bit image without an optional header and without sections. -/
def bareImage : ByteArray :=
  Bytes.ofList ([0x4D, 0x5A] ++ List.replicate 58 0 ++ Bytes.unlittle 4 64 ++ Image.signature ++
    Bytes.unlittle 2 0x14C ++ List.replicate 18 0)

def bareAsk : Ask := { around := { source := Source.ofBytes bareImage }, key := some "k" }

/-- A cache that holds nothing and takes nothing. -/
def brokenCache : Cache Unit where
  get _ store := (.ok none, store)
  put _ _ store := (.error (.broken "bug"), store)

def brokenSetup : Setup Unit := { config := {}, cache := some brokenCache }

theorem report_after_miss_bare :
    (lookup brokenSetup bareAsk ()).1 = none ∧
    (analyze brokenSetup bareAsk ()).1.report =
      .stopped bareAsk.size true false (Stop.broken "bug").message := by
  have hmiss : (lookup brokenSetup bareAsk ()).1 = none := rfl
  have hplain : (analyze brokenSetup.uncached bareAsk ()).1.report.finished?.isSome = true ∧
      (analyze brokenSetup.uncached bareAsk ()).1.report.isImage = true ∧
      (analyze brokenSetup.uncached bareAsk ()).1.report.isLarge = false := by decide +kernel
  obtain ⟨hfinished, himage, hlarge⟩ := hplain
  obtain ⟨a, ha⟩ := Option.isSome_iff_exists.1 hfinished
  have h := (report_after_miss rfl hmiss).2 "bug" ⟨"k", a, by decide, ha, rfl⟩
  rw [himage, hlarge] at h
  exact ⟨hmiss, h⟩

theorem broken_put_loses_analysis :
    (lookup brokenSetup bareAsk ()).1.isNone = true ∧
    (analyze brokenSetup.uncached bareAsk ()).1.report.strategy = .direct ∧
    (analyze brokenSetup bareAsk ()).1.report.strategy = .failed := by decide +kernel

end PETriage.Request
