import PETriage.Cache.Memory
import PETriage.Proofs.Request.Cancellation
import PETriage.Proofs.Request.Reads

/-!
# How much of a file an analysis is made from

A source may give less than it is asked for, and nothing at all before the end of its file. The
loop that reads a file takes a read that gives nothing for the end of it, whatever the size is,
and no later step looks at the length of what was read. So an analysis of a whole file is made
from the front of it that was read, which is all of it when no read came back empty.
-/
namespace PETriage.Request

open Report (Analysis)

/-! ## Sources that show a file -/

/-- What a source gives from an offset of a file on are the bytes of the file that follow there.
There may be none of them, at any offset. -/
structure Source.Shows (s : Source) (d : ByteArray) : Prop where
  size : s.size = d.size
  read : ∀ k (offset : Nat) length piece, offset ≤ d.size → s.read k offset length = .ok piece →
    ∃ n, offset + n ≤ d.size ∧ piece = d.extract offset (offset + n)

/-- A file whose reads end before it does. -/
def Source.endingAt (d : ByteArray) (stop : Nat) : Source where
  size := d.size
  name := memoryName
  read _ offset length := .ok (Bytes.window (d.extract 0 stop) offset (offset + length))

theorem extract_stop (d : ByteArray) {start : Nat} (h : start ≤ d.size) (stop : Nat) :
    ∃ n, start + n ≤ d.size ∧ d.extract start stop = d.extract start (start + n) := by
  refine ⟨min stop d.size - start, by omega, ?_⟩
  apply ByteArray.ext_getElem
  · simp only [ByteArray.size_extract]
    omega
  · intro i hi hi'
    simp only [ByteArray.getElem_extract]

theorem Source.endingAt_shows (d : ByteArray) (stop : Nat) : (Source.endingAt d stop).Shows d where
  size := rfl
  read := by
    intro k offset length piece ho hr
    have hpiece : Bytes.window (d.extract 0 stop) offset (offset + length) = piece :=
      Except.ok.inj hr
    have hstart : Bytes.endpoint (d.extract 0 stop).size offset =
        min offset (d.extract 0 stop).size :=
      Bytes.endpoint_of_nonneg _ (Int.natCast_nonneg _)
    have hstop := Bytes.endpoint_le (d.extract 0 stop).size (offset + length)
    rw [← hpiece, Bytes.window, hstart, ByteArray.extract_extract, Nat.zero_add, Nat.zero_add]
    rcases Nat.le_total offset (d.extract 0 stop).size with h | h
    · rw [Nat.min_eq_left h]
      exact extract_stop d ho _
    · refine ⟨0, ho, ?_⟩
      rw [Nat.min_eq_right h, Nat.add_zero, ByteArray.extract_same, ByteArray.extract_eq_empty_iff]
      omega

theorem Source.ofBytes_shows (d : ByteArray) (name : String) : (Source.ofBytes d name).Shows d where
  size := rfl
  read := by
    intro k offset length piece ho hr
    have hpiece : Bytes.window d offset (offset + length) = piece := Except.ok.inj hr
    have hstart : Bytes.endpoint d.size offset = offset := by
      rw [Bytes.endpoint_of_nonneg _ (Int.natCast_nonneg _), Int.toNat_natCast, Nat.min_eq_left ho]
    rw [← hpiece, Bytes.window, hstart]
    exact extract_stop d ho _

theorem Source.ofFile_shows (d : ByteArray) (name : String) : (Source.ofFile d name).Shows d where
  size := rfl
  read := by
    intro k offset length piece ho hr
    have hr : fileWindow d offset length = .ok piece := hr
    unfold fileWindow at hr
    split_ifs at hr
    · rw [← Except.ok.inj hr]
      exact extract_stop d ho _
    · rw [← Except.ok.inj hr]
      exact extract_stop d ho _

/-! ## Reading a file in chunks -/

/-- So many bytes are read in chunks, and there was something in every read. -/
structure Fed (done : Int) (log : List Event) : Prop extends Reading done log where
  fed : 0 ∉ readSizes log

/-- The buffer holds what was read in chunks so far. -/
structure Gathering (s : Source) (b : ByteArray) (log : List Event) : Prop where
  fed : Fed b.size log
  shown : ∀ d, s.Shows d → b = d.extract 0 b.size

/-- The buffer holds all that was read in chunks, which is too little when there was nothing in
one of the reads, and only then. -/
structure Gathered (s : Source) (b : ByteArray) (log : List Event) : Prop where
  size : b.size = bytesInChunks log
  short_iff : b.size < s.size ↔ 0 ∈ readSizes log
  shown : ∀ d, s.Shows d → b = d.extract 0 b.size

section

variable {s : Source} {b piece : ByteArray} {e : Event} {log : List Event} {done length : Int}

theorem Fed.cons (h : Fed done log) (hw : e ≠ .polled false) (ha : e ≠ .analyzed)
    (hg : e.given? = none) : Fed done (e :: log) where
  toReading := h.toReading.cons hw ha hg
  fed := by rw [readSizes_cons hg]; exact h.fed

theorem Fed.read (h : Fed done log) (offset length : Int) {got : Nat} (hg : got ≠ 0) :
    Fed (done + got) (.read offset length got :: log) where
  toReading := h.toReading.read offset length got
  fed := List.not_mem_cons_of_ne_of_not_mem hg.symm h.fed

theorem fed_first (offset length : Int) {got : Nat} (hg : got ≠ 0) :
    Fed 0 [.read offset length got] where
  toReading := reading_first offset length got
  fed := List.not_mem_cons_of_ne_of_not_mem hg.symm List.not_mem_nil

theorem Gathering.cons (h : Gathering s b log) (hw : e ≠ .polled false) (ha : e ≠ .analyzed)
    (hg : e.given? = none) : Gathering s b (e :: log) :=
  ⟨h.fed.cons hw ha hg, h.shown⟩

theorem gathering_empty (h : Fed 0 log) : Gathering s .empty log where
  fed := h
  shown := fun _ _ => ByteArray.extract_same.symm

theorem size_le_of_front {d : ByteArray} (h : b = d.extract 0 b.size) : b.size ≤ d.size := by
  have hsize := congrArg ByteArray.size h
  rw [ByteArray.size_extract] at hsize
  omega

/-- A read from where the buffer ends brings the bytes that follow in the file. -/
theorem Gathering.read (h : Gathering s b log) {k : Nat}
    (hr : s.read k b.size length = .ok piece) (hp : piece.size ≠ 0) :
    Gathering s (b ++ piece) (.read b.size length piece.size :: log) where
  fed := by
    rw [ByteArray.size_append, Int.natCast_add]
    exact h.fed.read _ _ hp
  shown := by
    intro d hd
    have hb := h.shown d hd
    obtain ⟨n, hn, rfl⟩ := hd.read k b.size length piece (size_le_of_front hb) hr
    have hsize : (b ++ d.extract b.size (b.size + n)).size = b.size + n := by
      rw [ByteArray.size_append, ByteArray.size_extract]
      omega
    rw [hsize, ByteArray.extract_eq_extract_append_extract b.size (Nat.zero_le _)
      (Nat.le_add_right ..), ← hb]

theorem Gathering.whole (h : Gathering s b log) (hle : s.size ≤ b.size) : Gathered s b log where
  size := Int.ofNat.inj h.fed.received.symm
  short_iff := iff_of_false (Nat.not_lt.2 hle) h.fed.fed
  shown := h.shown

theorem Gathering.dry (h : Gathering s b log) (hlt : b.size < s.size) (offset length : Int) :
    Gathered s b (.read offset length 0 :: log) where
  size := by
    rw [bytesInChunks_read h.fed.begun, Nat.zero_add]
    exact Int.ofNat.inj h.fed.received.symm
  short_iff := iff_of_true hlt List.mem_cons_self
  shown := h.shown

theorem Gathered.cons (h : Gathered s b log) (hg : e.given? = none) : Gathered s b (e :: log) where
  size := by rw [bytesInChunks_cons hg]; exact h.size
  short_iff := by rw [readSizes_cons hg]; exact h.short_iff
  shown := h.shown

/-- A buffer that was gathered from a file is the file itself, unless it is too short. -/
theorem Gathered.eq_iff (h : Gathered s b log) {d : ByteArray} (hd : s.Shows d) :
    b = d ↔ 0 ∉ readSizes log := by
  have hb := h.shown d hd
  rw [← h.short_iff, hd.size]
  constructor
  · rintro rfl
    exact Nat.lt_irrefl _
  · intro hle
    have hsize : b.size = d.size := Nat.le_antisymm (size_le_of_front hb) (Nat.le_of_not_lt hle)
    rwa [hsize, ByteArray.extract_zero_size] at hb

end

section

variable {w : Surroundings} {t : Trace}

theorem readAt_gathers {b : ByteArray} (h : Gathering w.source b t.log)
    (hlt : b.size < w.source.size) (length : Int) :
    (readAt w b.size length).Leads t
      (fun piece t => (piece.size = 0 → Gathered w.source b t.log) ∧
        (piece.size ≠ 0 → Gathering w.source (b ++ piece) t.log)) fun _ _ => True := by
  refine readAt_leads (fun piece hr => ⟨fun hz => ?_, h.read hr⟩) fun _ _ => trivial
  rw [hz]
  exact h.dry hlt _ _

theorem gathering_calm (w : Surroundings) (s : Source) (b : ByteArray) :
    Calm w fun t => Gathering s b t.log :=
  calm_of_log w (fun _ _ h => h.cons nofun nofun rfl) fun _ h => h.cons nofun nofun rfl

theorem gathering_rounds (w : Surroundings) (chunk : Int) :
    Rounds w 0 w.source.size chunk (reportSpan w)
      (fun done pieces t => done = (joinReversed pieces).size ∧
        Gathering w.source (joinReversed pieces) t.log)
      (fun taken t => Gathered w.source (joinReversed taken) t.log) fun _ _ => True where
  poll := by
    rintro _ pieces t ⟨rfl, h⟩ -
    exact checkWanted_leads ⟨rfl, h⟩ ⟨rfl, h.cons (by simp) (by simp) rfl⟩ trivial
  read := by
    rintro _ pieces t ⟨rfl, h⟩ hlt
    rw [Int.zero_add]
    refine (readAt_gathers h (Int.ofNat_lt.1 hlt) _).mono (fun piece t h => ?_) fun _ _ h => h
    rw [← joinReversed_cons] at h
    split
    · exact h.1 ‹_›
    · rename_i hz
      have hdone : ((joinReversed pieces).size : Int) + piece.size =
          (joinReversed (piece :: pieces)).size := by
        rw [joinReversed_cons, ByteArray.size_append, Int.natCast_add]
      rw [hdone]
      have hcalm := gathering_calm w w.source (joinReversed (piece :: pieces))
      have hgained : Gathering w.source (joinReversed (piece :: pieces))
          (t.add (.gained (joinReversed (piece :: pieces)).size w.source.size)).log :=
        (h.2 hz).cons (by simp) (by simp) rfl
      exact .of_ok (emit_run _ _ _) ⟨rfl, hcalm.pause _ (hcalm.emit _ _ hgained)⟩
  last := by
    rintro _ pieces t ⟨rfl, h⟩ hle
    exact h.whole (Int.ofNat_le.1 hle)

theorem readAll_gathers (config : Config) (h : Gathering w.source .empty t.log) :
    (readAll config w).Leads t (fun b t => Gathered w.source b t.log) fun _ _ => True := by
  unfold readAll readChunked
  rw [clippedLength_size]
  have hstart : Gathering w.source (joinReversed []) t.log := h
  refine ((gathering_rounds w _).leads ⟨rfl, hstart⟩).bind fun taken t h => ?_
  exact .pure h

theorem gathered_aftermath (w : Surroundings) (s : Source) (b : ByteArray) :
    Aftermath w (fun t => Gathered s b t.log) fun _ _ => True where
  calmAfter := calm_of_log w (fun _ _ h => h.cons rfl) fun _ h => h.cons rfl
  analyzed := fun _ h => h.cons rfl
  stop := fun _ _ _ _ => trivial

end

/-! ## Analyses of a whole file -/

section

variable {σ : Type} {setup : Setup σ} {ask : Ask} {b : ByteArray} {t : Trace}

/-- An analysis is marked as one of a front, or comes from a buffer that was read in chunks. -/
def Based (setup : Setup σ) (ask : Ask) (r : Analysis × Strategy) (t : Trace) : Prop :=
  r.2 = .degraded ∨
    ∃ b, MadeFrom setup ask.size b r.1 r.2 ∧ Gathered ask.around.source b t.log

theorem based_calm (setup : Setup σ) (ask : Ask) (r : Analysis × Strategy) :
    Calm ask.around (Based setup ask r) where
  emit := fun value t h => h.imp_right fun ⟨b, hm, hg⟩ =>
    ⟨b, hm, (gathered_aftermath ask.around _ b).calmAfter.emit value t hg⟩
  pause := fun _ h => h.imp_right fun ⟨b, hm, hg⟩ => ⟨b, hm, hg.cons rfl⟩

theorem directFull_based (h : Gathered ask.around.source b t.log) :
    (directFull setup.config ask.around b).Leads t (Based setup ask) fun _ _ => True := by
  have hlog := directFull_leads (gathered_aftermath ask.around _ b) setup.config b h
  refine (hlog.and_ensures (directFull_madeFrom setup ask.around b)).mono ?_ fun _ _ h => h
  exact fun _ _ ⟨hm, hg⟩ => .inr ⟨b, hm, hg⟩

theorem degraded_based (b : ByteArray) :
    (degraded setup.config ask.around b).Leads t (Based setup ask) fun _ _ => True := by
  have hway : (degraded setup.config ask.around b).Ensures fun r => r.2 = .degraded :=
    .after fun _ => .pure rfl
  exact hway.leads.mono (fun _ _ h => .inl h) fun _ _ h => h

/-- An external analyzer that gives nothing leaves the buffer as it was gathered. -/
theorem tryExternal_based {next : Option Analysis → Step (Analysis × Strategy)}
    (h : Gathered ask.around.source b t.log)
    (hsome : ∀ a, next (some a) = emit ask.around 70 >>= fun _ => pure (a, .external))
    (hnone : ∀ t, Gathered ask.around.source b t.log →
      (next none).Leads t (Based setup ask) fun _ _ => True) :
    (tryExternal setup ask.around b >>= next).Leads t (Based setup ask) fun _ _ => True := by
  have hlog := tryExternal_leads (gathered_aftermath ask.around _ b) setup b h
  refine (hlog.and_ensures (tryExternal_madeFrom setup ask.around b)).bind
    fun given t ⟨hm, hg⟩ => ?_
  cases given with
  | none => exact hnone t hg
  | some a =>
    rw [hsome]
    exact emit_leads (.pure ((based_calm setup ask _).emit 70 t (.inr ⟨b, hm a rfl, hg⟩)))

theorem analyzeSmall_based (h : Gathering ask.around.source .empty t.log) :
    (analyzeSmall setup ask.around).Leads t (Based setup ask) fun _ _ => True := by
  unfold analyzeSmall
  refine (readAll_gathers _ h).bind fun b t h => ?_
  cases setup.config.delegateSmallFiles with
  | false => exact directFull_based h
  | true => exact tryExternal_based h (fun _ => rfl) fun _ h => directFull_based h

theorem analyzeAlone_based (h : Gathering ask.around.source .empty t.log) :
    (analyzeAlone setup ask.around ask.forceFull none).Leads t (Based setup ask)
      fun _ _ => True := by
  unfold analyzeAlone
  cases ask.forceFull with
  | true => exact (readAll_gathers _ h).bind fun b t h => directFull_based h
  | false => exact .bind (Step.Ensures.trivial _).leads fun b t _ => degraded_based b

theorem analyzeAlone_whole_based (h : Gathered ask.around.source b t.log) :
    (analyzeAlone setup ask.around ask.forceFull (some b)).Leads t (Based setup ask)
      fun _ _ => True := by
  unfold analyzeAlone
  cases ask.forceFull with
  | true => exact directFull_based h
  | false => exact .bind (Step.Ensures.trivial _).leads fun stop t _ => degraded_based _

theorem analyzeLarge_based (h : Gathering ask.around.source .empty t.log) :
    (analyzeLarge setup ask.around ask.forceFull).Leads t (Based setup ask) fun _ _ => True := by
  unfold analyzeLarge
  cases isAvailable setup.external with
  | false => exact analyzeAlone_based h
  | true =>
    refine (readAll_gathers _ h).bind fun b t h => ?_
    exact tryExternal_based h (fun _ => rfl) fun _ h => analyzeAlone_whole_based h

theorem analyzeImage_based (large : Bool) (h : Gathering ask.around.source .empty t.log) :
    (analyzeImage setup ask large).Leads t (Based setup ask) fun _ _ => True := by
  unfold analyzeImage
  have h := (gathering_calm ask.around ask.around.source .empty).emit 30 t h
  refine emit_leads ?_
  have hemit : ∀ r t, Based setup ask r t →
      (emit ask.around 85 >>= fun _ => pure r).Leads t (Based setup ask) fun _ _ => True :=
    fun r t h => emit_leads (.pure ((based_calm setup ask r).emit 85 t h))
  cases large with
  | false => exact (analyzeSmall_based h).bind hemit
  | true => exact (analyzeLarge_based h).bind hemit

/-! ## Requests -/

theorem fed_course (setup : Setup σ) (ask : Ask) :
    Course setup ask (fun done t => ask.IsImage → Fed done t.log) (fun _ => True)
      fun _ _ => True where
  head := by
    refine readAt_leads (fun head hr hi => ?_) fun _ _ => trivial
    have htwo := hi.two_le hr
    exact fed_first _ _ (by omega)
  poll := fun _ _ h =>
    checkWanted_leads h (fun hi => (h hi).cons nofun nofun rfl) trivial
  read := fun _ _ _ _ h _ => readAt_leads
    (fun _ _ => ⟨trivial, fun hp hi => (h hi).read _ _ hp⟩) fun _ _ => trivial
  gained := fun _ _ _ _ h hi => (h hi).cons nofun nofun rfl
  calm := fun done => calm_of_log (p := fun log => ask.IsImage → Fed done log) _
    (fun _ _ h hi => (h hi).cons nofun nofun rfl) fun _ h hi => (h hi).cons nofun nofun rfl
  past := fun _ _ _ => trivial
  calmAfter := ⟨fun _ _ _ => trivial, fun _ _ => trivial⟩
  analyzed := fun _ _ => trivial
  stop := fun _ _ _ _ => trivial

/-- What is reported was made from a buffer that was read in chunks. -/
def Grounded (setup : Setup σ) (ask : Ask) (r : ScanReport) (t : Trace) : Prop :=
  ∃ b a, r.analysis = some a ∧ MadeFrom setup ask.size b a r.strategy ∧
    Gathered ask.around.source b t.log

theorem Grounded.emitted {r : ScanReport} (h : Grounded setup ask r t) (value : Int) :
    Grounded setup ask r (emitted ask.around value t) := by
  obtain ⟨b, a, ha, hm, hg⟩ := h
  exact ⟨b, a, ha, hm, (gathered_aftermath ask.around _ b).calmAfter.emit value t hg⟩

theorem prepareImage_grounded {large : Bool} (h : Gathering ask.around.source .empty t.log)
    (hf : (prepareImage setup ask large t).report.Finished) :
    Grounded setup ask (prepareImage setup ask large t).report
      (prepareImage setup ask large t).trace := by
  have hrun : (analyzeImage setup ask large).Leads t (Based setup ask) fun _ _ => True :=
    analyzeImage_based large h
  unfold Step.Leads at hrun
  unfold prepareImage at hf ⊢
  generalize (analyzeImage setup ask large).run t = s at hrun hf ⊢
  rcases s with ⟨stop | ⟨a, way⟩, t'⟩
  · exact absurd hf (not_finished_of_strategy ⟨nofun, nofun⟩)
  rcases hrun with hway | ⟨b, hm, hg⟩
  · have hway : way = .degraded := hway
    subst hway
    exact absurd hf (not_finished_of_strategy ⟨nofun, nofun⟩)
  · exact ⟨b, a, rfl, hm, hg⟩

theorem prepare_grounded (setup : Setup σ) (ask : Ask) (store : σ)
    (hf : (prepare setup ask store).1.report.Finished) :
    Grounded setup ask (prepare setup ask store).1.report (prepare setup ask store).1.trace := by
  have hrun := classify_leads (fed_course setup ask)
  unfold Step.Leads at hrun
  unfold prepare at hf ⊢
  generalize (classify setup ask.around).run {} = s at hrun hf ⊢
  rcases s with ⟨stop | front, t⟩
  · exact absurd hf (not_finished_of_strategy ⟨nofun, nofun⟩)
  obtain ⟨hfront, -, hfed⟩ := hrun
  cases front with
  | hashed hashes => exact absurd hf (not_finished_of_strategy ⟨nofun, nofun⟩)
  | unsized reason => exact absurd hf (not_finished_of_strategy ⟨nofun, nofun⟩)
  | image large =>
    have hfed := hfed hfront.1 hfront.1
    simp only at hf ⊢
    generalize lookup setup ask store = found at hf ⊢
    rcases found with ⟨_ | found, after⟩
    · exact prepareImage_grounded (gathering_empty hfed) hf
    · exact absurd hf (not_finished_of_strategy ⟨nofun, nofun⟩)

/-- A report that is finished in the end is the one that was prepared. -/
theorem settle_finished {p : Prepared} {store : σ}
    (hf : (settle setup ask p store).1.report.Finished) :
    (settle setup ask p store).1.report = p.report := by
  rcases settle_report setup ask p store with h | ⟨message, h⟩
  · exact h
  · rw [h] at hf
    exact absurd hf (not_finished_of_strategy ⟨nofun, nofun⟩)

theorem settle_stores {p : Prepared} {cache : Cache σ} {key : String} {a : Analysis}
    (hc : setup.cache = some cache) (ht : p.toStore = some (key, a)) (store : σ) :
    (settle setup ask p store).2 = (cache.put key a store).2 := by
  unfold settle
  rw [hc, ht]
  simp only
  rcases cache.put key a store with ⟨(⟨reason⟩ | ⟨reason⟩) | _, after⟩
  · rfl
  · rfl
  · rfl

/-- A finished analysis was made from the bytes that were read in chunks. For any file that the
source shows these are the front of it, and all of it if and only if no read came back empty. The
analysis goes into the cache in either case. -/
theorem finished_covers_iff (setup : Setup σ) (ask : Ask) (store : σ)
    (hf : (analyze setup ask store).1.report.Finished) :
    let outcome := (analyze setup ask store).1
    ∃ b a, outcome.report.analysis = some a ∧ MadeFrom setup ask.size b a outcome.report.strategy ∧
      b.size = bytesInChunks outcome.trace.log ∧
      (b.size < ask.size ↔ 0 ∈ readSizes outcome.trace.log) ∧
      (∀ d, ask.around.source.Shows d →
        b = d.extract 0 b.size ∧ (b = d ↔ 0 ∉ readSizes outcome.trace.log)) ∧
      ∀ cache key, setup.cache = some cache → ask.usableKey = some key →
        (analyze setup ask store).2 = (cache.put key a (lookup setup ask store).2).2 := by
  intro outcome
  have hreport : outcome.report = (prepare setup ask store).1.report := settle_finished hf
  have hfinished : (prepare setup ask store).1.report.Finished := by rwa [← hreport]
  obtain ⟨b, a, ha, hm, hg⟩ := (prepare_grounded setup ask store hfinished).emitted 100
  rw [hreport]
  refine ⟨b, a, ha, hm, hg.size, hg.short_iff, fun d hd => ⟨hg.shown d hd, hg.eq_iff hd⟩, ?_⟩
  intro cache key hc hk
  have htoStore : (prepare setup ask store).1.toStore = some (key, a) := by
    rw [prepare_toStore, ScanReport.finished?, if_pos hfinished, ha, hk]
    rfl
  rw [analyze_eq, settle_stores hc htoStore, prepare_store_of_toStore htoStore]

/-- An image of one section, which lies behind all headers. -/
def sectionedImage : ByteArray :=
  Bytes.ofList ([0x4D, 0x5A] ++ List.replicate 58 0 ++ Bytes.unlittle 4 64 ++ Image.signature ++
    Bytes.unlittle 2 0x14C ++ Bytes.unlittle 2 1 ++ List.replicate 16 0 ++
    [0x2E, 0x74, 0x65, 0x78, 0x74, 0, 0, 0] ++ Bytes.unlittle 4 4 ++ Bytes.unlittle 4 0x1000 ++
    Bytes.unlittle 4 4 ++ Bytes.unlittle 4 128 ++ List.replicate 12 0 ++
    Bytes.unlittle 4 0x60000020 ++ [0x55, 0x8B, 0xEC, 0xC3])

/-- Nothing is read of the image but its headers. -/
def headersAsk : Ask :=
  { around := { source := Source.endingAt sectionedImage 128 }, key := some "k" }

def remembering : Setup Cache.Memory.Entries := { config := {}, cache := some Cache.Memory.cache }

theorem finished_covers_iff_headers :
    (analyze remembering headersAsk []).1.report.Finished ∧
    ∃ b a, (analyze remembering headersAsk []).1.report.analysis = some a ∧
      b = sectionedImage.extract 0 b.size ∧ b ≠ sectionedImage ∧
      (analyze remembering headersAsk []).2 = (Cache.Memory.cache.put "k" a []).2 := by
  have hrun : (analyze remembering headersAsk []).1.report.Finished ∧
      0 ∈ readSizes (analyze remembering headersAsk []).1.trace.log := by decide +kernel
  obtain ⟨hf, hempty⟩ := hrun
  obtain ⟨b, a, ha, -, -, -, hshown, hstored⟩ := finished_covers_iff remembering headersAsk [] hf
  have hshows : headersAsk.around.source.Shows sectionedImage := Source.endingAt_shows _ 128
  obtain ⟨hfront, hiff⟩ := hshown sectionedImage hshows
  exact ⟨hf, b, a, ha, hfront, fun hb => hiff.1 hb hempty, hstored _ "k" rfl (by decide)⟩

/-- Of 132 bytes 128 are read. The section that lies in the others is reported without an error
as if it held nothing, and so it is kept for later requests. -/
theorem headers_reported_as_whole :
    headersAsk.size = 132 ∧
    Bytes.toList (sectionedImage.extract 128 132) = [0x55, 0x8B, 0xEC, 0xC3] ∧
    bytesInChunks (analyze remembering headersAsk []).1.trace.log = 128 ∧
    (analyze remembering headersAsk []).1.report.strategy = .direct ∧
    (analyze remembering headersAsk []).1.report.error = none ∧
    (analyze remembering headersAsk []).1.report.analysis.map (·.sections.map (·.entropy)) =
      some ["0.000000"] ∧
    (analyze remembering headersAsk []).2.map (·.1) = ["k"] := by decide +kernel

end
end PETriage.Request
