import PETriage.Proofs.Report.Accounting
import PETriage.Proofs.Request.Reports
import PETriage.Proofs.Request.Storing
import PETriage.Proofs.Request.Traces
import PETriage.Proofs.Statistics.Sample

/-!
# What the analysis of a front costs

A large image that nobody else analyzes and that need not be analyzed in full is seen through its
first bytes and its front alone. However large the file is and wherever its headers point, what
is asked of the source stays inside of these two, and the statistics are those of small samples
of a few sections.
-/
namespace PETriage

namespace Direct

open Statistics (Measure)

variable {config : Config} {b : ByteArray} {request : Request} {r : Result}

/-- Few sections are taken, and what is measured of each is a sample of it. -/
structure Result.Sampled (config : Config) (r : Result) : Prop where
  few : (r.sections.length : Int) ≤ min config.maxSections config.degradedSectionCap
  samples : ∀ header m, .measured header m ∈ r.sections →
    ∃ span : ByteArray, (span.size : Int) ≤ 3 * config.sampleSize ∧ m.Covers span

theorem parse_sampled (hv : config.Valid) (hl : config.loose = [])
    (hall : request.measuresAll = false)
    (hcap : request.sectionCap = some config.degradedSectionCap)
    (h : parse config b request = .ok r) : r.Sampled config := by
  have htaken := (parse_accounted hl h).taken
  obtain ⟨headers, hd, -⟩ := bind_eq_ok_iff.1 h
  obtain ⟨r', hr, -, hsections, -⟩ := parse_eq config request hd
  cases h.symm.trans hr
  constructor
  · have hone : 1 ≤ min config.maxSections config.degradedSectionCap :=
      Int.le_min.2 ⟨hv.sections_pos, hv.degraded_pos⟩
    rw [hcap, sectionLimit] at htaken
    omega
  · intro header m hm
    rw [hsections] at hm
    obtain ⟨i, hi, hmeasured⟩ := List.mem_mapIdx.1 hm
    rw [row_of_measured hmeasured, sectionResult, Config.measure_of_loose_nil hl, hall] at hmeasured
    cases hmeasured
    have hsmall := Statistics.size_judged_le (sectionSpan b header) config.limits
      (Int.le_of_lt hv.sample_pos)
    exact ⟨_, hsmall, Statistics.measure_covers _ _ _⟩

end Direct

namespace Request

open Report (Analysis)

/-! ## Reads inside the front -/

/-- A read gives no more than it is asked for. -/
def Source.Modest (s : Source) : Prop :=
  ∀ (k offset length : Nat) piece, s.read k offset length = .ok piece → piece.size ≤ length

/-- Every read was one of the first bytes or of the front. -/
def Inside (front : Int) (log : List Event) : Prop := ∀ offset length got,
  .read offset length got ∈ log →
    0 ≤ offset ∧ 0 ≤ length ∧ offset + length ≤ max (Image.classifyLength : Int) front

/-- What is read of a file of which only the front is analyzed. -/
structure Frugal (front : Int) (log : List Event) : Prop where
  inside : Inside front log
  received : ((readSizes log).sum : Int) ≤ Image.classifyLength + front
  counted : (readSizes log).length ≤ (readSizes log).sum + 1

/-- So many bytes of the front are read, and there was something in every read. -/
structure WithinFront (front done : Int) (log : List Event) : Prop where
  inside : Inside front log
  nonneg : 0 ≤ done
  le_front : done ≤ front
  received : ((readSizes log).sum : Int) ≤ Image.classifyLength + done
  counted : (readSizes log).length < (readSizes log).sum

section

variable {front done offset length : Int} {got : Nat} {log : List Event} {e : Event}

theorem Inside.cons (h : Inside front log) (hg : e.given? = none) : Inside front (e :: log) := by
  intro offset length got hmem
  rcases List.mem_cons.1 hmem with rfl | hmem
  · cases hg
  · exact h offset length got hmem

theorem Inside.read (h : Inside front log) (h0 : 0 ≤ offset) (hl : 0 ≤ length)
    (hle : offset + length ≤ max (Image.classifyLength : Int) front) :
    Inside front (.read offset length got :: log) := by
  intro offset' length' got' hmem
  rcases List.mem_cons.1 hmem with he | hmem
  · cases he
    exact ⟨h0, hl, hle⟩
  · exact h offset' length' got' hmem

theorem Frugal.cons (h : Frugal front log) (hg : e.given? = none) : Frugal front (e :: log) := by
  obtain ⟨hinside, hreceived, hcounted⟩ := h
  rw [← readSizes_cons hg] at hreceived hcounted
  exact ⟨hinside.cons hg, hreceived, hcounted⟩

theorem WithinFront.cons (h : WithinFront front done log) (hg : e.given? = none) :
    WithinFront front done (e :: log) := by
  obtain ⟨hinside, hnonneg, hle, hreceived, hcounted⟩ := h
  rw [← readSizes_cons hg] at hreceived hcounted
  exact ⟨hinside.cons hg, hnonneg, hle, hreceived, hcounted⟩

theorem WithinFront.frugal (h : WithinFront front done log) : Frugal front log where
  inside := h.inside
  received := Int.le_trans h.received (Int.add_le_add_left h.le_front _)
  counted := Nat.le_succ_of_le (Nat.le_of_lt h.counted)

/-- The first bytes show an image, so there are two of them at least. -/
theorem withinFront_first (hf : 0 ≤ front) (h2 : 2 ≤ got) (hle : got ≤ Image.classifyLength) :
    WithinFront front 0 [.read 0 Image.classifyLength got] := by
  have hsizes : readSizes [.read 0 Image.classifyLength got] = [got] := rfl
  refine ⟨?_, Int.le_refl 0, hf, ?_, ?_⟩
  · refine Inside.read (fun _ _ _ h => absurd h List.not_mem_nil) (Int.le_refl 0) (by omega) ?_
    omega
  · rw [hsizes, List.sum_singleton]
    omega
  · rw [hsizes, List.sum_singleton, List.length_singleton]
    omega

theorem WithinFront.read (h : WithinFront front done log) (hl : 0 ≤ length)
    (hfront : done + length ≤ front) (got : Nat) (hgot : got ≤ length) :
    Frugal front (.read done length got :: log) ∧
      (got ≠ 0 → WithinFront front (done + got) (.read done length got :: log)) := by
  obtain ⟨hinside, hnonneg, hle, hreceived, hcounted⟩ := h
  have hinside' : Inside front (.read done length got :: log) :=
    hinside.read hnonneg hl (by omega)
  refine ⟨⟨hinside', ?_, ?_⟩, fun hne => ⟨hinside', by omega, by omega, ?_, ?_⟩⟩
  all_goals
    simp only [readSizes_read, List.sum_cons, List.length_cons]
    omega

end

/-! ## Requests of a front -/

section

variable {σ : Type} {setup : Setup σ} {ask : Ask}

/-- The length of the front of a file. -/
def frontLength (setup : Setup σ) (ask : Ask) : Int :=
  min setup.config.headerChunkSize ask.size

theorem frontOnly_stretch {length : Int} (hf : FrontOnly setup ask)
    (hh : 0 < setup.config.headerChunkSize) (h : Stretch setup ask length) :
    length = frontLength setup ask := by
  rcases h with ⟨-, rfl⟩ | ⟨hn, -⟩
  · unfold clippedLength frontLength
    omega
  · exact absurd hf hn

theorem Source.Modest.le {s : Source} (hs : s.Modest) {k : Nat} {offset length : Int}
    {piece : ByteArray} (h0 : 0 ≤ offset) (hl : 0 ≤ length)
    (h : s.read k offset length = .ok piece) : (piece.size : Int) ≤ length := by
  obtain ⟨m, rfl⟩ := Int.eq_ofNat_of_zero_le h0
  obtain ⟨n, rfl⟩ := Int.eq_ofNat_of_zero_le hl
  exact Int.ofNat_le.2 (hs k m n piece h)

theorem withinFront_course (hv : setup.config.Valid) (hf : FrontOnly setup ask)
    (hs : ask.around.source.Modest) :
    Course setup ask (fun done t => WithinFront (frontLength setup ask) done t.log)
      (fun t => Frugal (frontLength setup ask) t.log)
      (fun _ t => Frugal (frontLength setup ask) t.log) where
  head := by
    have hfront : 0 ≤ frontLength setup ask := by
      have hheader := hv.header_pos
      unfold frontLength
      omega
    refine readAt_leads (fun piece hr => ?_) fun fault hr => ?_
    · exact withinFront_first hfront (hf.image.two_le hr) (hs 0 0 _ piece hr)
    · obtain ⟨head, hread, -⟩ := hf.image
      cases hread.symm.trans hr
  poll := fun _ _ h => checkWanted_leads h (h.cons rfl) (h.frugal.cons rfl)
  read := by
    intro length done t hl h hlt
    have hread := hv.read_pos
    have hlength := frontOnly_stretch hf hv.header_pos hl
    have hpos : 0 ≤ min setup.config.readChunkSize (length - done) := by omega
    have hend : done + min setup.config.readChunkSize (length - done) ≤
        frontLength setup ask := by omega
    refine readAt_leads (fun piece hr => ?_) fun fault _ => ?_
    · exact h.read hpos hend _ (hs.le h.nonneg hpos hr)
    · exact (h.read hpos hend 0 hpos).1
  gained := fun _ _ _ _ h => h.cons rfl
  calm := fun done => calm_of_log (p := WithinFront _ done) _ (fun _ _ h => h.cons rfl)
    fun _ h => h.cons rfl
  past := fun _ _ h => h.frugal
  calmAfter := calm_of_log (p := Frugal _) _ (fun _ _ h => h.cons rfl) fun _ h => h.cons rfl
  analyzed := fun _ h => h.cons rfl
  stop := fun _ _ _ h => h

/-! ## Reports of a front -/

def frontRequest (config : Config) (size : Nat) : Direct.Request where
  fileSize := some (size : Int)
  largeFile := true
  sectionCap := some config.degradedSectionCap

/-- An analysis of a front as the parser gives it, marked as no more than that. -/
structure OfFront (setup : Setup σ) (ask : Ask) (front : ByteArray) (parsed : Direct.Result)
    (a : Analysis) : Prop where
  parse : Direct.parse setup.config front (frontRequest setup.config ask.size) = .ok parsed
  analysis : a = { Analysis.ofDirect parsed with error := some degradedMessage }

/-- Where the statistics in the report of a front come from: they are those of samples, or were
made by an earlier request, or there are none. -/
inductive FrontReport (setup : Setup σ) (ask : Ask) (r : ScanReport) : Prop
  | degraded (front : ByteArray) (parsed : Direct.Result) (a : Analysis)
    (hw : r.strategy = .degraded) (ha : r.analysis = some a)
    (hf : OfFront setup ask front parsed a) (hs : parsed.Sampled setup.config)
  | cached (a : Analysis) (hw : r.strategy = .cached) (ha : r.analysis = some a)
  | failed (message : Text) (hw : r.strategy = .failed)
    (ha : r.analysis = some (.failed ask.size message))

theorem degraded_ofFront (hl : setup.config.loose = []) (b : ByteArray) :
    (degraded setup.config ask.around b).Ensures fun r =>
      r.2 = .degraded ∧ ∃ parsed, OfFront setup ask b parsed r.1 := by
  have hgiven : Direct.parseGiven setup.config (some setup.config.givenCap) b
      (frontRequest setup.config ask.size) =
        (Direct.parse setup.config b (frontRequest setup.config ask.size)).mapError .header := by
    rw [Config.givenCap, Config.given_of_loose_nil hl, Direct.parseGiven]
    · rfl
    · exact hl
  have hparse : (parseDirect setup.config ask.around b (frontRequest setup.config ask.size)).Ensures
      fun a => ∃ parsed, OfFront setup ask b parsed { a with error := some degradedMessage } := by
    unfold parseDirect
    refine (Step.Ensures.ofExcept fun parsed hp => hp).bind fun parsed hp => ?_
    refine Step.Ensures.after fun _ => Step.Ensures.after fun _ => Step.Ensures.pure ?_
    exact ⟨parsed, mapError_eq_ok_iff.1 (hgiven.symm.trans hp), rfl⟩
  exact hparse.bind fun a ha => Step.Ensures.pure ⟨rfl, ha⟩

theorem prepareImage_front (hv : setup.config.Valid) (hl : setup.config.loose = [])
    (hf : FrontOnly setup ask) (t : Trace) :
    FrontReport setup ask (prepareImage setup ask true t).report := by
  have hrun : (analyzeImage setup ask true).Ensures fun r =>
      r.2 = .degraded ∧ ∃ front parsed, OfFront setup ask front parsed r.1 := by
    refine analyzeImage_ensures_of (fun hforce => ?_) (fun _ _ b => ?_) fun _ b => ?_
    · exact nomatch (hforce rfl).symm.trans hf.unforced
    · intro t r hr
      obtain ⟨hw, ha⟩ := degraded_ofFront hl b t r hr
      exact ⟨hw, b, ha⟩
    · intro t given hg a ha
      have havailable := (tryExternal_ensures setup ask.around b t given hg a ha).2
      exact nomatch havailable.symm.trans hf.alone
  have hrun := hrun t
  unfold prepareImage
  generalize (analyzeImage setup ask true).run t = s at hrun ⊢
  rcases s with ⟨stop | ⟨a, way⟩, t'⟩
  · exact .failed _ rfl rfl
  · obtain ⟨hw, front, parsed, ha⟩ := hrun _ rfl
    exact .degraded front parsed a hw rfl ha (Direct.parse_sampled hv hl rfl rfl ha.parse)

theorem prepare_front (hv : setup.config.Valid) (hl : setup.config.loose = [])
    (hf : FrontOnly setup ask) (store : σ) :
    FrontReport setup ask (prepare setup ask store).1.report := by
  obtain ⟨head, hread, himage⟩ := hf.image
  rw [prepare_report, hread, hf.large]
  simp only [himage, ↓reduceIte]
  cases (lookup setup ask store).1 with
  | none => exact prepareImage_front hv hl hf _
  | some found => exact .cached found rfl rfl

theorem settle_front {p : Prepared} (h : FrontReport setup ask p.report)
    (hi : p.report.isImage = true) (store : σ) :
    FrontReport setup ask (settle setup ask p store).1.report := by
  rcases settle_report setup ask p store with hkept | ⟨message, hstopped⟩
  · rwa [hkept]
  · rw [hstopped]
    exact .failed _ rfl (by rw [hi]; rfl)

/-- A large image that nobody else analyzes and that is not to be analyzed in full costs the
reads of its front, whatever its source answers within what it is asked for: none goes past the
front or the first bytes, they bring no more than these two have, there is at most one more of
them than bytes they bring, and what is measured are samples of a few sections. -/
theorem front_costs (hv : setup.config.Valid) (hl : setup.config.loose = [])
    (hs : ask.around.source.Modest) (hi : ask.IsImage)
    (hlarge : setup.config.largeFileThreshold < ask.size)
    (ha : isAvailable setup.external = false) (hf : ask.forceFull = false) (store : σ) :
    let outcome := (analyze setup ask store).1
    let header := setup.config.headerChunkSize
    (∀ offset length got, .read offset length got ∈ outcome.trace.log →
      0 ≤ offset ∧ 0 ≤ length ∧ offset + length ≤ max 8 (min header ask.size)) ∧
    outcome.trace.bytesRead ≤ 8 + header ∧
    (readSizes outcome.trace.log).length ≤ outcome.trace.bytesRead + 1 ∧
    FrontReport setup ask outcome.report := by
  intro outcome header
  have hfront : FrontOnly setup ask := by
    refine ⟨hi, ?_, ha, hf⟩
    rw [Config.isLarge_of_loose_nil hl, decide_eq_true hlarge]
  have hfrugal : Frugal (frontLength setup ask) outcome.trace.log :=
    analyze_keeps (withinFront_course hv hfront hs) store
  have hheader : frontLength setup ask ≤ header := Int.min_le_left ..
  refine ⟨hfrugal.inside, ?_, ?_, ?_⟩
  · rw [Trace.bytesRead_eq_sum]
    exact Int.le_trans hfrugal.received (Int.add_le_add_left hheader _)
  · rw [Trace.bytesRead_eq_sum]
    exact hfrugal.counted
  · exact settle_front (prepare_front hv hl hfront store)
      ((prepare_consistent setup ask store).image.2 hi) _

end

theorem Source.ofBytes_modest (b : ByteArray) (name : String) : (Source.ofBytes b name).Modest := by
  intro k offset length piece h
  have hsize := Bytes.size_window_le b (Int.natCast_nonneg offset)
    (Int.le_add_of_nonneg_right (Int.natCast_nonneg length))
  have hpiece : Bytes.window b offset (offset + length) = piece := Except.ok.inj h
  rw [hpiece] at hsize
  omega

/-- A bare image with something behind it, which counts as large. -/
def trailingAsk : Ask := { around := { source := Source.ofBytes (bareImage ++ Bytes.zeros 100) } }

def frontwise : Setup Unit :=
  { config := { largeFileThreshold := 100, headerChunkSize := 96, readChunkSize := 64 } }

theorem front_costs_trailing :
    frontwise.config.Valid ∧ frontwise.config.loose = [] ∧ trailingAsk.around.source.Modest ∧
    trailingAsk.IsImage ∧ frontwise.config.largeFileThreshold < trailingAsk.size ∧
    isAvailable frontwise.external = false ∧ trailingAsk.forceFull = false ∧
    ((analyze frontwise trailingAsk ()).1.trace.bytesRead : Int) ≤ 104 := by
  have hv : frontwise.config.Valid := by constructor <;> decide
  have hs := Source.ofBytes_modest (bareImage ++ Bytes.zeros 100) Source.memoryName
  have hi : trailingAsk.IsImage := ⟨_, rfl, by decide +kernel⟩
  have hlarge : frontwise.config.largeFileThreshold < trailingAsk.size := by decide +kernel
  obtain ⟨-, hbytes, -, -⟩ := front_costs hv rfl hs hi hlarge rfl rfl ()
  exact ⟨hv, rfl, hs, hi, hlarge, rfl, rfl, hbytes⟩

example : readSizes (analyze frontwise trailingAsk ()).1.trace.log = [32, 64, 8] := by
  decide +kernel

end Request
end PETriage
