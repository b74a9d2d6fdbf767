import PETriage.Proofs.Direct.Parse
import PETriage.Proofs.Report.Room
import PETriage.Proofs.Request.Steps

/-!
# Reports that hold together

A request leaves through many exits, each of which fills a part of its report. `Consistent` is
the joint condition on all of it; every report of every run meets it.
-/
namespace PETriage.Request

open Report (Analysis)

variable {σ : Type}

/-! ## An analysis and the way to it -/

theorem fileSize_of_assemble {o : Fields} {parts : Report.Parts} {n : Int} {a : Analysis}
    (h : Analysis.assemble o parts (some n) = .ok a) : a.fileSize = n := by
  simp only [Analysis.assemble, bind_eq_ok_iff] at h
  obtain ⟨imports, -, resources, -, optional, -, h⟩ := h
  cases h
  rfl

theorem parseDirect_ensures (config : Config) (w : Surroundings) (b : ByteArray)
    {request : Direct.Request} {n : Int} (hn : request.fileSize = some n) :
    (parseDirect config w b request).Ensures fun a => a.fileSize = n ∧ a.error = none := by
  unfold parseDirect
  refine (Step.Ensures.ofExcept fun r hr => Direct.parseGiven_parsed hr).bind fun r hr => ?_
  refine Step.Ensures.after fun _ => Step.Ensures.after fun _ => Step.Ensures.pure ⟨?_, rfl⟩
  rw [Analysis.ofDirect, hr.fileSize, hn]
  rfl

/-- How an analysis that is not marked as one of a front comes from a buffer: the direct parser
was given the buffer, or an external analyzer was and answered with a payload. -/
inductive MadeFrom (setup : Setup σ) (size : Nat) (b : ByteArray) : Analysis → Strategy → Prop
  | direct {r : Direct.Result}
      (hp : Direct.parseGiven setup.config none b
        { fileSize := some (size : Int), forceFull := true } = .ok r) :
      MadeFrom setup size b (.ofDirect r) .direct
  | external {analyzer : External.Analyzer} {payload : Value} {fields : Fields} {a : Analysis}
      (hx : setup.external = some analyzer) (hi : analyzer.available = true)
      (hp : analyzer.analyze b = .payload payload) (hv : External.validate payload = .ok fields)
      (ha : Analysis.ofPayload fields (some size) setup.room = .ok a) :
      MadeFrom setup size b a .external

theorem directFull_madeFrom (setup : Setup σ) (w : Surroundings) (b : ByteArray) :
    (directFull setup.config w b).Ensures fun r => MadeFrom setup w.source.size b r.1 r.2 := by
  have hparse : (parseDirect setup.config w b
      { fileSize := some (w.source.size : Int), forceFull := true }).Ensures fun a =>
        MadeFrom setup w.source.size b a .direct := by
    unfold parseDirect
    refine (Step.Ensures.ofExcept fun r hr => hr).bind fun r hr => ?_
    exact .after fun _ => .after fun _ => .pure (.direct hr)
  exact hparse.bind fun a ha => .pure ha

/-- Fields come only from an analyzer that was there and answered with them. -/
theorem run_ensures (analyzer : External.Analyzer) (b : ByteArray) (limit : Seconds) :
    (analyzer.run b limit).Ensures fun r => ∀ fields, r = .ok fields →
      analyzer.available = true ∧ ∃ payload, analyzer.analyze b = .payload payload ∧
        External.validate payload = .ok fields := by
  unfold External.Analyzer.run
  cases analyzer.available with
  | false => exact .pure nofun
  | true =>
    cases limit.fault? with
    | some reason => exact .pure nofun
    | none =>
      cases limit.expired with
      | true => exact .after fun _ => .pure nofun
      | false =>
        refine .after fun _ => .after fun _ => ?_
        cases analyzer.analyze b with
        | payload v => exact .pure fun fields hv => ⟨rfl, v, rfl, hv⟩
        | raised reason => exact .pure nofun
        | refused reason => exact .pure nofun
        | timedOut => exact .pure nofun

theorem tryExternal_madeFrom (setup : Setup σ) (w : Surroundings) (b : ByteArray) :
    (tryExternal setup w b).Ensures fun given => ∀ a, given = some a →
      MadeFrom setup w.source.size b a .external := by
  have hnone : ∀ a, (none : Option Analysis) = some a →
      MadeFrom setup w.source.size b a .external := by
    intro a h
    cases h
  unfold tryExternal
  cases hx : setup.external with
  | none => exact .pure hnone
  | some analyzer =>
    refine (run_ensures analyzer b _).bind fun r hr => ?_
    cases r with
    | error e => exact .pure hnone
    | ok fields =>
      obtain ⟨hi, payload, hp, hv⟩ := hr fields rfl
      refine (Step.Ensures.ofExcept fun a ha => ha).bind fun a ha => .pure ?_
      rintro _ ⟨⟩
      exact .external hx hi hp hv ha

theorem tryExternal_ensures (setup : Setup σ) (w : Surroundings) (b : ByteArray) :
    (tryExternal setup w b).Ensures fun given => ∀ a, given = some a →
      a.fileSize = w.source.size ∧ isAvailable setup.external = true := by
  refine (tryExternal_madeFrom setup w b).mono fun given h a ha => ?_
  cases h a ha with
  | external hx hi hp hv ha =>
    refine ⟨fileSize_of_assemble (Report.ofPayload_eq_ok_iff.1 ha).2, ?_⟩
    rw [isAvailable, hx, Option.any_some, hi]

structure Reached (setup : Setup σ) (ask : Ask) (large : Bool) (analysis : Analysis)
    (way : Strategy) : Prop where
  ways : way = .direct ∨ way = .external ∨ way = .degraded
  size : analysis.fileSize = ask.size
  direct : way = .direct → analysis.error = none ∧ (large = true → ask.forceFull = true)
  external : way = .external →
    isAvailable setup.external = true ∧ (large = true ∨ setup.config.delegateSmallFiles = true)
  degraded : way = .degraded →
    large = true ∧ ask.forceFull = false ∧ analysis.error = some (degradedMessage : Text)

theorem Reached.ofDirect {setup : Setup σ} {ask : Ask} {large : Bool} {a : Analysis}
    (hs : a.fileSize = ask.size ∧ a.error = none) (hf : large = true → ask.forceFull = true) :
    Reached setup ask large a .direct :=
  ⟨.inl rfl, hs.1, fun _ => ⟨hs.2, hf⟩, nofun, nofun⟩

theorem Reached.ofExternal {setup : Setup σ} {ask : Ask} {large : Bool} {a : Analysis}
    (hs : a.fileSize = ask.size ∧ isAvailable setup.external = true)
    (hw : large = true ∨ setup.config.delegateSmallFiles = true) :
    Reached setup ask large a .external :=
  ⟨.inr (.inl rfl), hs.1, nofun, fun _ => ⟨hs.2, hw⟩, nofun⟩

theorem directFull_ensures (setup : Setup σ) (ask : Ask) (large : Bool) (b : ByteArray)
    (hf : large = true → ask.forceFull = true) :
    (directFull setup.config ask.around b).Ensures fun r => Reached setup ask large r.1 r.2 := by
  refine (parseDirect_ensures _ _ _ rfl).bind fun a ha => ?_
  exact Step.Ensures.pure (Reached.ofDirect ha hf)

theorem degraded_ensures (setup : Setup σ) (ask : Ask) (b : ByteArray)
    (hf : ask.forceFull = false) :
    (degraded setup.config ask.around b).Ensures fun r => Reached setup ask true r.1 r.2 := by
  refine (parseDirect_ensures _ _ _ rfl).bind fun a ha => ?_
  exact Step.Ensures.pure ⟨.inr (.inr rfl), ha.1, nofun, nofun, fun _ => ⟨rfl, hf, rfl⟩⟩

section Ways

variable {setup : Setup σ} {ask : Ask} {post : Analysis × Strategy → Prop}

def EnsuresExternal (setup : Setup σ) (ask : Ask) (post : Analysis × Strategy → Prop) : Prop :=
  ∀ b, (tryExternal setup ask.around b).Ensures fun given =>
    ∀ a, given = some a → post (a, .external)

theorem analyzeSmall_ensures (hdirect : ∀ b, (directFull setup.config ask.around b).Ensures post)
    (hexternal : setup.config.delegateSmallFiles = true → EnsuresExternal setup ask post) :
    (analyzeSmall setup ask.around).Ensures post := by
  unfold analyzeSmall
  refine Step.Ensures.after fun b => ?_
  cases hd : setup.config.delegateSmallFiles with
  | false => exact hdirect b
  | true =>
    refine (hexternal hd b).bind fun given hg => ?_
    cases given with
    | none => exact hdirect b
    | some a => exact Step.Ensures.after fun _ => Step.Ensures.pure (hg a rfl)

theorem analyzeAlone_ensures
    (hdirect : ask.forceFull = true → ∀ b, (directFull setup.config ask.around b).Ensures post)
    (hdegraded : ask.forceFull = false → ∀ b, (degraded setup.config ask.around b).Ensures post)
    (whole : Option ByteArray) :
    (analyzeAlone setup ask.around ask.forceFull whole).Ensures post := by
  unfold analyzeAlone
  cases hf : ask.forceFull with
  | true =>
    cases whole with
    | none => exact Step.Ensures.after (hdirect hf)
    | some b => exact hdirect hf b
  | false =>
    cases whole with
    | none => exact Step.Ensures.after (hdegraded hf)
    | some b => exact Step.Ensures.after fun stop => hdegraded hf (Bytes.window b 0 stop)

theorem analyzeLarge_ensures
    (hdirect : ask.forceFull = true → ∀ b, (directFull setup.config ask.around b).Ensures post)
    (hdegraded : ask.forceFull = false → ∀ b, (degraded setup.config ask.around b).Ensures post)
    (hexternal : EnsuresExternal setup ask post) :
    (analyzeLarge setup ask.around ask.forceFull).Ensures post := by
  unfold analyzeLarge
  cases isAvailable setup.external with
  | false => exact analyzeAlone_ensures hdirect hdegraded none
  | true =>
    refine Step.Ensures.after fun b => ?_
    refine (hexternal b).bind fun given hg => ?_
    cases given with
    | none => exact analyzeAlone_ensures hdirect hdegraded (some b)
    | some a => exact Step.Ensures.after fun _ => Step.Ensures.pure (hg a rfl)

/-- What every way of analysis ensures, where it is gone, holds of the analysis of an image. -/
theorem analyzeImage_ensures_of {large : Bool}
    (hdirect : (large = true → ask.forceFull = true) →
      ∀ b, (directFull setup.config ask.around b).Ensures post)
    (hdegraded : large = true → ask.forceFull = false →
      ∀ b, (degraded setup.config ask.around b).Ensures post)
    (hexternal : large = true ∨ setup.config.delegateSmallFiles = true →
      EnsuresExternal setup ask post) :
    (analyzeImage setup ask large).Ensures post := by
  unfold analyzeImage
  refine Step.Ensures.after fun _ => ?_
  cases large with
  | false =>
    refine (analyzeSmall_ensures (hdirect nofun) fun hd => hexternal (.inr hd)).bind fun r h => ?_
    exact Step.Ensures.after fun _ => Step.Ensures.pure h
  | true =>
    refine (analyzeLarge_ensures (fun hf => hdirect fun _ => hf) (hdegraded rfl)
      (hexternal (.inl rfl))).bind fun r h => ?_
    exact Step.Ensures.after fun _ => Step.Ensures.pure h

end Ways

theorem analyzeImage_ensures (setup : Setup σ) (ask : Ask) (large : Bool) :
    (analyzeImage setup ask large).Ensures fun r => Reached setup ask large r.1 r.2 := by
  refine analyzeImage_ensures_of (fun hf b => directFull_ensures setup ask large b hf) ?_ ?_
  · rintro rfl hf b
    exact degraded_ensures setup ask b hf
  · intro hw b t given hgiven a ha
    exact Reached.ofExternal (tryExternal_ensures setup ask.around b t given hgiven a ha) hw

/-! ## Reports -/

/-- The parts of a report agree with one another, with the request and with the cache that it
looked into. -/
structure Consistent (setup : Setup σ) (ask : Ask) (store : σ) (r : ScanReport) : Prop where
  named : r.strategy.name ∈
    ["direct", "external", "degraded", "cached", "not_applicable", "failed"]
  fileSize : r.fileSize = ask.size
  image : r.isImage = true ↔ ask.IsImage
  large : r.isLarge = true ↔ r.isImage = true ∧ setup.config.isLarge ask.size = .ok true
  failed : r.strategy = .failed → ∃ message, r.error = some message ∧ r.hashes = none ∧
    r.analysis = if r.isImage then some (Analysis.failed ask.size message) else none
  notApplicable : r.strategy = .notApplicable →
    r.isImage = false ∧ r.analysis = none ∧ r.error = none ∧ r.hashes.isSome
  analyzed : r.strategy = .direct ∨ r.strategy = .external ∨ r.strategy = .degraded →
    r.isImage = true ∧ r.hashes = none ∧
      ∃ a, r.analysis = some a ∧ a.fileSize = ask.size ∧ r.error = a.error
  direct : r.strategy = .direct → r.error = none ∧ (r.isLarge = true → ask.forceFull = true)
  external : r.strategy = .external →
    isAvailable setup.external = true ∧ (r.isLarge = true ∨ setup.config.delegateSmallFiles = true)
  degraded : r.strategy = .degraded →
    r.isLarge = true ∧ ask.forceFull = false ∧ r.error = some (degradedMessage : Text)
  cached : r.strategy = .cached → r.isImage = true ∧ r.hashes = none ∧ r.error = none ∧
    ∃ cache key a, setup.cache = some cache ∧ ask.key = some key ∧ key ≠ "" ∧
      (cache.get key store).1 = .ok (some a) ∧ r.analysis = some a

section

variable {setup : Setup σ} {ask : Ask} {store : σ}

theorem Strategy.name_mem (s : Strategy) :
    s.name ∈ ["direct", "external", "degraded", "cached", "not_applicable", "failed"] := by
  cases s <;> simp [Strategy.name]

theorem Consistent.stopped {isImage isLarge : Bool} (message : Text)
    (hi : isImage = true ↔ ask.IsImage)
    (hl : isLarge = true ↔ isImage = true ∧ setup.config.isLarge ask.size = .ok true) :
    Consistent setup ask store (.stopped ask.size isImage isLarge message) where
  named := Strategy.name_mem _
  fileSize := rfl
  image := hi
  large := hl
  failed := fun _ => ⟨message, rfl, rfl, rfl⟩
  notApplicable := nofun
  analyzed := nofun
  direct := nofun
  external := nofun
  degraded := nofun
  cached := nofun

theorem Consistent.hashed (hashes : Hashes) (hi : ¬ask.IsImage) :
    Consistent setup ask store { fileSize := ask.size, hashes := some hashes } where
  named := Strategy.name_mem _
  fileSize := rfl
  image := by simp [hi]
  large := by simp
  failed := nofun
  notApplicable := fun _ => ⟨rfl, rfl, rfl, rfl⟩
  analyzed := nofun
  direct := nofun
  external := nofun
  degraded := nofun
  cached := nofun

theorem lookup_eq_some {a : Analysis} (h : (lookup setup ask store).1 = some a) :
    ∃ cache key a', setup.cache = some cache ∧ ask.key = some key ∧ key ≠ "" ∧
      (cache.get key store).1 = .ok (some a') ∧ some a = some a' := by
  unfold lookup at h
  split at h
  · rename_i cache key hc hk
    simp only [Ask.usableKey, Option.filter_eq_some_iff, bne_iff_ne, ne_eq] at hk
    generalize hg : cache.get key store = g at h
    rcases g with ⟨(reason | found), store'⟩
    · simp [Except.toOption] at h
    · simp only [Except.toOption, Option.join_some] at h
      exact ⟨cache, key, a, hc, hk.1, hk.2, by rw [hg, h], rfl⟩
  · cases h

theorem Consistent.found {large : Bool} {a : Analysis} (hi : ask.IsImage)
    (hl : setup.config.isLarge ask.size = .ok large) (hf : (lookup setup ask store).1 = some a) :
    Consistent setup ask store
      { fileSize := ask.size, isImage := true, isLarge := large, strategy := .cached,
        analysis := some a } where
  named := Strategy.name_mem _
  fileSize := rfl
  image := by simp [hi]
  large := by simp [hl]
  failed := nofun
  notApplicable := nofun
  analyzed := nofun
  direct := nofun
  external := nofun
  degraded := nofun
  cached := fun _ => ⟨rfl, rfl, rfl, lookup_eq_some hf⟩

theorem Consistent.reached {large : Bool} {a : Analysis} {way : Strategy} (hi : ask.IsImage)
    (hl : setup.config.isLarge ask.size = .ok large) (h : Reached setup ask large a way) :
    Consistent setup ask store
      { fileSize := ask.size, isImage := true, isLarge := large, strategy := way,
        analysis := some a, error := a.error } where
  named := Strategy.name_mem _
  fileSize := rfl
  image := by simp [hi]
  large := by simp [hl]
  failed := by rcases h.ways with rfl | rfl | rfl <;> exact nofun
  notApplicable := by rcases h.ways with rfl | rfl | rfl <;> exact nofun
  analyzed := fun _ => ⟨rfl, rfl, a, rfl, h.size, rfl⟩
  direct := h.direct
  external := h.external
  degraded := h.degraded
  cached := by rcases h.ways with rfl | rfl | rfl <;> exact nofun

theorem prepareImage_consistent {large : Bool} (hi : ask.IsImage)
    (hl : setup.config.isLarge ask.size = .ok large) (t : Trace) :
    Consistent setup ask store (prepareImage setup ask large t).report := by
  have hr := analyzeImage_ensures setup ask large t
  unfold prepareImage
  generalize (analyzeImage setup ask large).run t = s at hr ⊢
  rcases s with ⟨stop | ⟨a, way⟩, t'⟩
  · exact .stopped _ (by simp [hi]) (by simp [hl])
  · exact .reached hi hl (hr _ rfl)

/-- Up to the point where something is stored, each exit leaves a report that holds together. -/
theorem prepare_consistent (setup : Setup σ) (ask : Ask) (store : σ) :
    Consistent setup ask store (prepare setup ask store).1.report := by
  rw [prepare_report]
  cases hh : ask.around.source.read 0 0 Image.classifyLength with
  | error fault =>
    have hi : ¬ask.IsImage := by simp [Ask.IsImage, hh]
    exact .stopped _ (by simp [hi]) (by simp)
  | ok head =>
    have hi : ask.IsImage ↔ Image.startsAsImage head = true := by simp [Ask.IsImage, hh]
    cases hs : Image.startsAsImage head with
    | false =>
      have hi : ¬ask.IsImage := by simp [hi, hs]
      simp only [hs, Bool.false_eq_true, ↓reduceIte]
      cases ((hashSource setup ask.around).run (headTrace ask.around head)).1 with
      | error stop => exact .stopped _ (by simp [hi]) (by simp)
      | ok hashes => exact .hashed hashes hi
    | true =>
      have hi : ask.IsImage := hi.2 hs
      simp only [hs, ↓reduceIte]
      cases hl : setup.config.isLarge ask.size with
      | error reason => exact .stopped _ (by simp [hi]) (by simp [hl])
      | ok large =>
        cases hf : (lookup setup ask store).1 with
        | some a => exact .found hi hl hf
        | none => exact prepareImage_consistent hi hl _

/-- Storing keeps a report or stops the request, of which the image and its size stay known. -/
theorem settle_report (setup : Setup σ) (ask : Ask) (p : Prepared) (store : σ) :
    (settle setup ask p store).1.report = p.report ∨
      ∃ message : Text, (settle setup ask p store).1.report =
        .stopped ask.size p.report.isImage p.report.isLarge message := by
  unfold settle
  cases setup.cache with
  | none => exact .inl rfl
  | some cache =>
    cases p.toStore with
    | none => exact .inl rfl
    | some entry =>
      simp only
      rcases cache.put entry.1 entry.2 store with ⟨(⟨reason⟩ | ⟨reason⟩) | _, after⟩
      · exact .inl rfl
      · exact .inr ⟨_, rfl⟩
      · exact .inl rfl

theorem settle_consistent {p : Prepared} (h : Consistent setup ask store p.report) (store' : σ) :
    Consistent setup ask store (settle setup ask p store').1.report := by
  rcases settle_report setup ask p store' with hkept | ⟨message, hstopped⟩
  · rwa [hkept]
  · rw [hstopped]
    exact .stopped _ h.image h.large

end

/-- Every request comes to a report, and its parts agree: whatever the source, the external
analyzer, the cache, the one who may lose interest and the listener do. -/
theorem analyze_consistent (setup : Setup σ) (ask : Ask) (store : σ) :
    Consistent setup ask store (analyze setup ask store).1.report :=
  settle_consistent (prepare_consistent setup ask store) _

end PETriage.Request
