import PETriage.Proofs.Image.Front
import PETriage.Proofs.Image.RoundTrip
import PETriage.Proofs.Request.Reads

/-!
# An external analyzer that fails

However an external analyzer fails, a request goes on as if there were none. The file may then
have been read as a whole already, and be cut down to its front, or only its front be read; the
reads being exact, both come to one analysis.
-/
namespace PETriage

namespace External

def Outcome.Fails : Outcome → Prop
  | .payload v => ∀ o, validate v ≠ .ok o
  | _ => True

/-- The analyzer is not there, has no time, or makes nothing of these bytes. -/
def Analyzer.Fails (a : Analyzer) (b : ByteArray) (limit : Seconds) : Prop :=
  a.available = false ∨ limit.fault?.isSome ∨ limit.expired = true ∨ (a.analyze b).Fails

theorem Analyzer.run_returns {a : Analyzer} {b : ByteArray} {limit : Seconds}
    (h : a.Fails b limit) : (a.run b limit).Returns fun r => ∃ e, r = .error e := by
  unfold Analyzer.run
  cases ha : a.available with
  | false => exact .pure ⟨_, rfl⟩
  | true =>
    cases hf : limit.fault? with
    | some reason => exact .pure ⟨_, rfl⟩
    | none =>
      cases hx : limit.expired with
      | true => exact (Request.pauses_gives 3).returns.bind fun _ _ => .pure ⟨_, rfl⟩
      | false =>
        have hfails : (a.analyze b).Fails := by simpa [Analyzer.Fails, ha, hf, hx] using h
        refine (Request.note_gives .analyzed).returns.bind fun _ _ => ?_
        refine Request.pause_gives.returns.bind fun _ _ => ?_
        cases ho : a.analyze b with
        | payload v =>
          rw [ho] at hfails
          cases hv : validate v with
          | ok o => exact absurd hv (hfails o)
          | error e => exact .pure ⟨e, hv⟩
        | raised reason => exact .pure ⟨_, rfl⟩
        | refused reason => exact .pure ⟨_, rfl⟩
        | timedOut => exact .pure ⟨_, rfl⟩

end External

namespace Request

open Report (Analysis)
open External (Analyzer)

variable {σ : Type}

/-- There is no external analyzer, or the one that there is fails. -/
def NoHelp (external : Option Analyzer) (limit : Seconds) (b : ByteArray) : Prop :=
  ∀ a ∈ external, a.Fails b limit

theorem tryExternal_gives {setup : Setup σ} {b : ByteArray}
    (h : NoHelp setup.external setup.config.externalTimeout b) (w : Surroundings) :
    (tryExternal setup w b).Gives (.ok none) := by
  unfold tryExternal
  cases he : setup.external with
  | none => exact .pure none
  | some a =>
    apply Step.Returns.gives
    refine (Analyzer.run_returns (h a he)).bind ?_
    rintro _ ⟨e, rfl⟩
    exact .pure rfl

/-! ## What the analysis comes to without help -/

def parsed (config : Config) (b : ByteArray) (request : Direct.Request) : Except Stop Analysis :=
  ((Direct.parseGiven config (request.sectionCap.map fun _ => config.givenCap) b
    request).mapError stopOfFault).map .ofDirect

def wholeOutcome (config : Config) (b : ByteArray) : Except Stop (Analysis × Strategy) :=
  (parsed config b { fileSize := some b.size, forceFull := true }).map fun a => (a, .direct)

/-- The analysis of the front of a file, marked as no more than that. -/
def frontOutcome (config : Config) (b : ByteArray) : Except Stop (Analysis × Strategy) :=
  (parsed config (Bytes.window b 0 config.headerChunkSize)
    { fileSize := some b.size, largeFile := true,
      sectionCap := some config.degradedSectionCap }).map
    fun a => ({ a with error := some degradedMessage }, .degraded)

def aloneOutcome (config : Config) (large forceFull : Bool) (b : ByteArray) :
    Except Stop (Analysis × Strategy) :=
  if large && !forceFull then frontOutcome config b else wholeOutcome config b

theorem parseDirect_gives (config : Config) (w : Surroundings) (b : ByteArray)
    (request : Direct.Request) :
    (parseDirect config w b request).Gives (parsed config b request) := by
  unfold parseDirect parsed
  refine (Step.Gives.ofExcept _ _).map fun r => ?_
  exact (pauses_gives _).bind ((emit_gives w 70).bind (.pure _))

section

variable {setup : Setup σ} {ask : Ask} {b : ByteArray}

theorem directFull_gives (hs : ask.around.source.Serves b) :
    (directFull setup.config ask.around b).Gives (wholeOutcome setup.config b) := by
  unfold directFull wholeOutcome
  rw [hs.size]
  exact (parseDirect_gives _ _ _ _).map fun a => .pure _

theorem degraded_gives (hs : ask.around.source.Serves b) :
    (degraded setup.config ask.around (Bytes.window b 0 setup.config.headerChunkSize)).Gives
      (frontOutcome setup.config b) := by
  unfold degraded frontOutcome
  rw [hs.size]
  exact (parseDirect_gives _ _ _ _).map fun a => .pure _

theorem analyzeSmall_gives (hs : ask.around.source.Serves b) (hw : ask.around.StaysWanted)
    (hr : 0 < setup.config.readChunkSize)
    (hn : setup.config.delegateSmallFiles = true →
      NoHelp setup.external setup.config.externalTimeout b) :
    (analyzeSmall setup ask.around).Gives (wholeOutcome setup.config b) := by
  unfold analyzeSmall
  refine (readAll_gives hs hw hr).bind ?_
  cases hd : setup.config.delegateSmallFiles with
  | false => exact directFull_gives hs
  | true => exact (tryExternal_gives (hn hd) ask.around).bind (directFull_gives hs)

/-- The front of a file is the same cut out of all its bytes and read from the source. -/
theorem analyzeAlone_gives (hs : ask.around.source.Serves b) (hw : ask.around.StaysWanted)
    (hv : setup.config.Valid) (hl : setup.config.loose = []) (whole : Option ByteArray)
    (hb : ∀ read ∈ whole, read = b) :
    (analyzeAlone setup ask.around ask.forceFull whole).Gives
      (aloneOutcome setup.config true ask.forceFull b) := by
  unfold analyzeAlone aloneOutcome
  cases ask.forceFull with
  | true =>
    cases whole with
    | none => exact (readAll_gives hs hw hv.read_pos).bind (directFull_gives hs)
    | some read =>
      rw [hb read rfl]
      exact directFull_gives hs
  | false =>
    cases whole with
    | none =>
      have hfront := readChunked_gives hs hw hv.read_pos (Int.le_of_lt hv.header_pos)
        (reportSpan_gives ask.around)
      exact hfront.bind (degraded_gives hs)
    | some read =>
      have hend : setup.config.frontEnd = .ok setup.config.headerChunkSize := by
        simp only [Config.frontEnd, Config.givenHeaderChunk, Config.given_of_loose_nil hl]
        rfl
      rw [hb read rfl, hend]
      exact degraded_gives hs

theorem analyzeLarge_gives (hs : ask.around.source.Serves b) (hw : ask.around.StaysWanted)
    (hv : setup.config.Valid) (hl : setup.config.loose = [])
    (hn : NoHelp setup.external setup.config.externalTimeout b) :
    (analyzeLarge setup ask.around ask.forceFull).Gives
      (aloneOutcome setup.config true ask.forceFull b) := by
  unfold analyzeLarge
  cases isAvailable setup.external with
  | false => exact analyzeAlone_gives hs hw hv hl none (by simp)
  | true =>
    refine (readAll_gives hs hw hv.read_pos).bind ?_
    refine (tryExternal_gives hn ask.around).bind ?_
    exact analyzeAlone_gives hs hw hv hl (some b) (by simp)

theorem analyzeImage_gives (hs : ask.around.source.Serves b) (hw : ask.around.StaysWanted)
    (hv : setup.config.Valid) (hl : setup.config.loose = []) {large : Bool}
    (hn : large = true ∨ setup.config.delegateSmallFiles = true →
      NoHelp setup.external setup.config.externalTimeout b) :
    (analyzeImage setup ask large).Gives (aloneOutcome setup.config large ask.forceFull b) := by
  unfold analyzeImage
  refine (emit_gives _ _).bind ?_
  cases large with
  | false =>
    refine (analyzeSmall_gives hs hw hv.read_pos fun hd => hn (.inr hd)).before fun r => ?_
    exact (emit_gives _ _).bind (.pure r)
  | true =>
    refine (analyzeLarge_gives hs hw hv hl (hn (.inl rfl))).before fun r => ?_
    exact (emit_gives _ _).bind (.pure r)

end

/-! ## Reports -/

def imageReport (ask : Ask) (large : Bool) : Except Stop (Analysis × Strategy) → ScanReport
  | .error stop => .stopped ask.size true large stop.message
  | .ok (a, way) =>
    { fileSize := ask.size, isImage := true, isLarge := large, strategy := way,
      analysis := some a, error := a.error }

def otherReport (ask : Ask) : Except Stop Hashes → ScanReport
  | .error stop => .stopped ask.size false false stop.message
  | .ok hashes => { fileSize := ask.size, hashes := some hashes }

theorem imageReport_small (ask : Ask) (large : Bool) (r : Except Stop (Analysis × Strategy)) :
    { imageReport ask large r with isLarge := false } = imageReport ask false r := by
  cases r with
  | error stop => rfl
  | ok r => rfl

theorem otherReport_small (ask : Ask) (r : Except Stop Hashes) :
    { otherReport ask r with isLarge := false } = otherReport ask r := by
  cases r with
  | error stop => rfl
  | ok hashes => rfl

/-- The report of a request that takes no analysis from anyone else. -/
def aloneReport (setup : Setup σ) (ask : Ask) (b : ByteArray) : ScanReport :=
  match ask.around.source.read 0 0 Image.classifyLength with
  | .error fault => .stopped ask.size false false (Stop.unread fault).message
  | .ok head =>
    if Image.startsAsImage head then
      let large := decide (setup.config.largeFileThreshold < ask.size)
      imageReport ask large (aloneOutcome setup.config large ask.forceFull b)
    else otherReport ask ((hashSource setup ask.around).run (headTrace ask.around head)).1

theorem prepareImage_report {setup : Setup σ} {ask : Ask} {large : Bool}
    {r : Except Stop (Analysis × Strategy)} (h : (analyzeImage setup ask large).Gives r)
    (t : Trace) : (prepareImage setup ask large t).report = imageReport ask large r := by
  have ht := h t
  unfold prepareImage
  generalize (analyzeImage setup ask large).run t = s at ht ⊢
  rcases s with ⟨stop | ⟨a, way⟩, t'⟩
  · cases ht
    rfl
  · cases ht
    rfl

theorem analyze_report_alone {setup : Setup σ} {ask : Ask} {b : ByteArray}
    (hs : ask.around.source.Serves b) (hw : ask.around.StaysWanted)
    (hv : setup.config.Valid) (hl : setup.config.loose = []) (hc : setup.cache = none)
    (hn : setup.config.largeFileThreshold < ask.size ∨ setup.config.delegateSmallFiles = true →
      NoHelp setup.external setup.config.externalTimeout b) (store : σ) :
    (analyze setup ask store).1.report = aloneReport setup ask b := by
  simp only [analyze, settle, hc, prepare_report, aloneReport]
  cases ask.around.source.read 0 0 Image.classifyLength with
  | error fault => rfl
  | ok head =>
    simp only
    split
    · have hn' : decide (setup.config.largeFileThreshold < ask.size) = true ∨
          setup.config.delegateSmallFiles = true →
            NoHelp setup.external setup.config.externalTimeout b := by
        simpa only [decide_eq_true_eq] using hn
      simp only [Config.isLarge_of_loose_nil hl, lookup, hc]
      exact prepareImage_report (analyzeImage_gives hs hw hv hl hn') _
    · rfl

section

variable {setup : Setup σ} {ask : Ask} {b : ByteArray}

theorem aloneReport_of_large (hlarge : setup.config.largeFileThreshold < ask.size)
    (hforce : ask.forceFull = false) (hi : ask.IsImage) :
    aloneReport setup ask b = imageReport ask true (frontOutcome setup.config b) := by
  obtain ⟨head, hread, hhead⟩ := hi
  rw [aloneReport, hread]
  simp only [hhead, ↓reduceIte, hlarge, decide_true, hforce, aloneOutcome, Bool.not_false,
    Bool.and_self]

theorem aloneReport_of_forceFull (hforce : ask.forceFull = true) {threshold : Int}
    (ht : ask.size ≤ threshold) :
    { aloneReport setup ask b with isLarge := false } =
      aloneReport { setup with config := { setup.config with largeFileThreshold := threshold } }
        ask b := by
  have hsmall : ¬threshold < ask.size := Int.not_lt.2 ht
  have hwhole (large : Bool) :
      aloneOutcome setup.config large ask.forceFull b = wholeOutcome setup.config b := by
    simp only [aloneOutcome, hforce, Bool.not_true, Bool.and_false, Bool.false_eq_true, ↓reduceIte]
  unfold aloneReport
  cases ask.around.source.read 0 0 Image.classifyLength with
  | error fault => rfl
  | ok head =>
    cases hi : Image.startsAsImage head with
    | false =>
      simp only [hi, Bool.false_eq_true, ↓reduceIte]
      exact otherReport_small ask _
    | true =>
      have hsame : aloneOutcome { setup.config with largeFileThreshold := threshold } false
          ask.forceFull b = wholeOutcome setup.config b := hwhole false
      simp only [hi, ↓reduceIte, hwhole, hsmall, decide_false, hsame]
      exact imageReport_small ask _ _

end

def reportWith (config : Config) (external : Option Analyzer) (hasher : Hasher) (ask : Ask) :
    ScanReport :=
  let setup : Setup Unit := { config := config, external := external, hasher := hasher }
  (analyze setup ask ()).1.report

/-- Requests of a source that serves its file, under a valid configuration and with external
analyzers that fail, differ in nothing but what they say about the size: of two such analyzers
either gives the same report; a small file is reported as if nothing were given away; the front
of a large one is the same front of the file, read or cut out; and one that is analyzed in full
is reported as under a threshold that it does not exceed. -/
theorem failing_analyzer_as_none {config : Config} (hv : config.Valid) (hl : config.loose = [])
    {ask : Ask} {b : ByteArray} (hs : ask.around.source.Serves b)
    (hw : ask.around.StaysWanted) {first second : Option Analyzer}
    (h₁ : NoHelp first config.externalTimeout b) (h₂ : NoHelp second config.externalTimeout b)
    (hasher : Hasher) :
    reportWith config first hasher ask = reportWith config second hasher ask ∧
    (ask.size ≤ config.largeFileThreshold → ∀ other,
      reportWith config first hasher ask =
        reportWith { config with delegateSmallFiles := false } other hasher ask) ∧
    (config.largeFileThreshold < ask.size → ask.forceFull = false → ask.IsImage →
      reportWith config first hasher ask = imageReport ask true (frontOutcome config b)) ∧
    (config.largeFileThreshold < ask.size → ask.forceFull = true → ∀ threshold : Int,
      ask.size ≤ threshold →
      { reportWith config first hasher ask with isLarge := false } =
        reportWith { config with largeFileThreshold := threshold } second hasher ask) := by
  let setup : Setup Unit := { config := config, hasher := hasher }
  have hreport {external : Option Analyzer} (h : NoHelp external config.externalTimeout b) :
      reportWith config external hasher ask = aloneReport setup ask b :=
    analyze_report_alone hs hw hv hl rfl (fun _ => h) ()
  have hvalid (threshold : Int) (delegate : Bool) : Config.Valid
      { config with largeFileThreshold := threshold, delegateSmallFiles := delegate } :=
    ⟨hv.sample_pos, hv.read_pos, hv.header_pos, hv.sample_le, hv.degraded_pos, hv.sections_pos⟩
  refine ⟨?_, ?_, ?_, ?_⟩
  · rw [hreport h₁, hreport h₂]
  · intro hsmall other
    have hoff : reportWith { config with delegateSmallFiles := false } other hasher ask =
        aloneReport setup ask b := by
      refine analyze_report_alone hs hw (hvalid _ _) hl rfl (fun h => ?_) ()
      rcases h with h | h
      · exact absurd h (Int.not_lt.2 hsmall)
      · cases h
    rw [hreport h₁, hoff]
  · intro hlarge hforce hi
    rw [hreport h₁]
    exact aloneReport_of_large hlarge hforce hi
  · intro hlarge hforce threshold ht
    have hraised :
        reportWith { config with largeFileThreshold := threshold } second hasher ask =
        aloneReport { setup with config := { config with largeFileThreshold := threshold } } ask b :=
      analyze_report_alone hs hw (hvalid _ _) hl rfl (fun _ => h₂) ()
    rw [hreport h₁, hraised]
    exact aloneReport_of_forceFull hforce ht

/-- Of a front whose headers can be decoded there is an analysis. -/
theorem exists_frontOutcome {config : Config} (hl : config.loose = []) {b : ByteArray}
    (h : Succeeds (Image.Headers.decode (Bytes.window b 0 config.headerChunkSize))) :
    ∃ a, frontOutcome config b = .ok (a, .degraded) := by
  obtain ⟨headers, h⟩ := h
  simp only [frontOutcome, parsed, Option.map_some, Config.givenCap,
    Config.given_of_loose_nil hl, Direct.parseGiven, hl, Direct.parse, Direct.parseUnder, h]
  exact ⟨_, rfl⟩

/-- An image with bytes behind its only section. -/
def oneSectionAndMore : ByteArray :=
  Bytes.ofList Image.oneSection.bytes ++ Bytes.ofList (List.replicate 512 0)

theorem size_oneSection : (Bytes.ofList Image.oneSection.bytes).size = 1536 := by
  decide +kernel

theorem size_oneSectionAndMore : oneSectionAndMore.size = 2048 := by
  rw [oneSectionAndMore, ByteArray.size_append, size_oneSection]
  decide +kernel

theorem window_oneSectionAndMore :
    Bytes.window oneSectionAndMore 0 1536 = Bytes.ofList Image.oneSection.bytes := by
  have hsize : 1536 ≤ oneSectionAndMore.size := by
    rw [size_oneSectionAndMore]
    decide
  have hwindow := Bytes.window_of_le oneSectionAndMore (Nat.zero_le _) hsize
  refine hwindow.trans ?_
  rw [oneSectionAndMore, Bytes.extract_append_of_le _ (Nat.le_of_eq size_oneSection.symm),
    ← size_oneSection, ByteArray.extract_zero_size]

/-- An analyzer that raises and none at all, for an image with more in it than is read of the front
of a large one. -/
theorem raising_analyzer_as_none :
    let ask (forceFull : Bool) : Ask :=
      { around := { source := Source.ofBytes oneSectionAndMore }, forceFull := forceFull }
    let raising : Analyzer := { name := "raising", analyze := fun _ => .raised "no reason" }
    let small : Config := { delegateSmallFiles := true }
    let large : Config := { largeFileThreshold := 1536, headerChunkSize := 1536 }
    let hasher : Hasher := .ofPieces Hashes.ofPieces
    large.headerChunkSize < oneSectionAndMore.size ∧
    reportWith large (some raising) hasher (ask false) = reportWith large none hasher (ask false) ∧
    reportWith small (some raising) hasher (ask false) =
      reportWith { small with delegateSmallFiles := false } none hasher (ask false) ∧
    (∃ a, frontOutcome large oneSectionAndMore = .ok (a, .degraded) ∧
      reportWith large (some raising) hasher (ask false) =
        imageReport (ask false) true (.ok (a, .degraded))) ∧
    { reportWith large (some raising) hasher (ask true) with isLarge := false } =
      reportWith { large with largeFileThreshold := 2048 } none hasher (ask true) := by
  intro ask raising small large hasher
  have hs (forceFull : Bool) : (ask forceFull).around.source.Serves oneSectionAndMore :=
    Source.ofBytes_serves oneSectionAndMore Source.memoryName
  have hw (forceFull : Bool) : (ask forceFull).around.StaysWanted := by
    intro wanted h
    cases h
  have hfails (limit : Seconds) : NoHelp (some raising) limit oneSectionAndMore := by
    intro a h
    cases h
    exact .inr (.inr (.inr trivial))
  have hnone (limit : Seconds) : NoHelp none limit oneSectionAndMore := nofun
  have hlong (forceFull : Bool) : large.largeFileThreshold < (ask forceFull).size := by
    show (1536 : Int) < oneSectionAndMore.size
    rw [size_oneSectionAndMore]
    decide
  have hi : (ask false).IsImage := ⟨_, rfl, by decide +kernel⟩
  have hsmall : small.Valid := by constructor <;> decide
  have hlarge : large.Valid := by constructor <;> decide
  obtain ⟨hsame, -, hfront, -⟩ :=
    failing_analyzer_as_none hlarge rfl (hs false) (hw false) (hfails _) (hnone _) hasher
  obtain ⟨a, ha⟩ : ∃ a, frontOutcome large oneSectionAndMore = .ok (a, .degraded) := by
    apply exists_frontOutcome rfl
    rw [window_oneSectionAndMore, Image.Plan.decode_ofList]
    exact succeeds_ok _
  refine ⟨?_, hsame, ?_, ⟨a, ha, ?_⟩, ?_⟩
  · rw [size_oneSectionAndMore]
    decide
  · refine (failing_analyzer_as_none hsmall rfl (hs false) (hw false) (hfails _) (hnone _)
      hasher).2.1 ?_ none
    show (oneSectionAndMore.size : Int) ≤ _
    rw [size_oneSectionAndMore]
    decide
  · rw [hfront (hlong false) rfl hi, ha]
  · refine (failing_analyzer_as_none hlarge rfl (hs true) (hw true) (hfails _) (hnone _)
      hasher).2.2.2 (hlong true) rfl 2048 ?_
    show (oneSectionAndMore.size : Int) ≤ _
    rw [size_oneSectionAndMore]
    decide

end Request
end PETriage
