import PETriage.Proofs.Request.Onlookers
import PETriage.Proofs.Request.Storing

/-!
# Requests that are called off

Before each chunk those who may lose interest are asked. As long as they answer yes a request goes
on as if nobody were asked; at the first no it stops where it stands. What stands in its log then
is only what led up to this answer: the reads of one loop, so that the offset it names is the
number of bytes which that loop has received, and neither an analysis nor anything to store.
-/
namespace PETriage.Request

open Report (Analysis)

/-- The bytes received in chunks: those of all reads but the first one, which shows what kind of
file it is. -/
def bytesInChunks (log : List Event) : Nat := (readSizes log).dropLast.sum

theorem bytesInChunks_cons {e : Event} (h : e.given? = none) (log : List Event) :
    bytesInChunks (e :: log) = bytesInChunks log := by
  rw [bytesInChunks, readSizes_cons h, bytesInChunks]

theorem bytesInChunks_read {log : List Event} (h : readSizes log ≠ []) (offset length : Int)
    (got : Nat) : bytesInChunks (.read offset length got :: log) = got + bytesInChunks log := by
  rw [bytesInChunks, readSizes_read, List.dropLast_cons_of_ne_nil h, List.sum_cons, bytesInChunks]

/-! ## Reading as long as it is wanted -/

/-- So many bytes of a file are read in chunks, every answer was yes, and nothing is analyzed. -/
structure Reading (done : Int) (log : List Event) : Prop where
  wanted : .polled false ∉ log
  unanalyzed : .analyzed ∉ log
  begun : readSizes log ≠ []
  received : bytesInChunks log = done

section

variable {log : List Event} {done : Int}

theorem Reading.cons {e : Event} (h : Reading done log) (hw : e ≠ .polled false)
    (ha : e ≠ .analyzed) (hg : e.given? = none) : Reading done (e :: log) where
  wanted := List.not_mem_cons_of_ne_of_not_mem hw.symm h.wanted
  unanalyzed := List.not_mem_cons_of_ne_of_not_mem ha.symm h.unanalyzed
  begun := by rw [readSizes_cons hg]; exact h.begun
  received := by rw [bytesInChunks_cons hg]; exact h.received

theorem Reading.read (h : Reading done log) (offset length : Int) (got : Nat) :
    Reading (done + got) (.read offset length got :: log) where
  wanted := List.not_mem_cons_of_ne_of_not_mem nofun h.wanted
  unanalyzed := List.not_mem_cons_of_ne_of_not_mem nofun h.unanalyzed
  begun := List.cons_ne_nil _ _
  received := by
    rw [bytesInChunks_read h.begun, ← h.received]
    omega

theorem reading_first (offset length : Int) (got : Nat) :
    Reading 0 [.read offset length got] where
  wanted := by simp
  unanalyzed := by simp
  begun := List.cons_ne_nil _ _
  received := rfl

/-- A request that stops after a no has been told it just now, at the offset it has come to. -/
def StopsAtOnce (stop : Stop) (t : Trace) : Prop := .polled false ∈ t.log →
  ∃ done earlier, stop = .cancelled done ∧ t.log = .polled false :: earlier ∧ Reading done earlier

theorem reading_course {σ : Type} (setup : Setup σ) (ask : Ask) :
    Course setup ask (fun done t => Reading done t.log) (fun t => .polled false ∉ t.log)
      StopsAtOnce where
  head := readAt_leads (fun _ _ => reading_first _ _ _)
    fun _ _ h => absurd h (reading_first _ _ 0).wanted
  poll := fun done t h => checkWanted_leads h (h.cons (by decide) (by decide) rfl)
    fun _ => ⟨done, t.log, rfl, rfl, h⟩
  read := by
    intro length done t _ h _
    refine readAt_leads (fun piece _ => ?_) fun fault _ hfalse => ?_
    · have hread := h.read done (min setup.config.readChunkSize (length - done)) piece.size
      exact ⟨hread.wanted, fun _ => hread⟩
    · exact absurd hfalse (h.read _ _ 0).wanted
  gained := fun _ _ _ _ h => h.cons nofun nofun rfl
  calm := fun done => calm_of_log (p := Reading done) _ (fun _ _ h => h.cons nofun nofun rfl)
    fun _ h => h.cons nofun nofun rfl
  past := fun _ _ h => h.wanted
  calmAfter := calm_of_log (p := fun log => .polled false ∉ log) _
    (fun _ _ h => List.not_mem_cons_of_ne_of_not_mem nofun h)
    fun _ h => List.not_mem_cons_of_ne_of_not_mem nofun h
  analyzed := fun _ h => List.not_mem_cons_of_ne_of_not_mem nofun h
  stop := fun _ _ _ h hfalse => absurd hfalse h

end

/-! ## Nothing is stored -/

section

variable {σ : Type} {setup : Setup σ} {ask : Ask} {store : σ}

/-- The same setup, with a cache that stores in another way. -/
def Setup.withPut (setup : Setup σ)
    (put : String → Analysis → σ → Except Cache.PutFault Unit × σ) : Setup σ :=
  { setup with cache := setup.cache.map fun cache => { cache with put := put } }

theorem prepare_withPut (put : String → Analysis → σ → Except Cache.PutFault Unit × σ) :
    prepare (setup.withPut put) ask store = prepare setup ask store := by
  have hlookup : lookup (setup.withPut put) ask store = lookup setup ask store := by
    unfold lookup Setup.withPut
    cases setup.cache with
    | none => rfl
    | some cache => cases ask.usableKey <;> rfl
  unfold prepare
  rw [hlookup]
  rfl

theorem settle_withPut (put : String → Analysis → σ → Except Cache.PutFault Unit × σ)
    {p : Prepared} (h : p.toStore = none) :
    settle (setup.withPut put) ask p store = settle setup ask p store := by
  unfold settle Setup.withPut
  rw [h]
  cases setup.cache with
  | none => rfl
  | some cache => rfl

/-! ## Requests that are called off -/

def calledOffMessage (received : Nat) : String :=
  "Analysis cancelled: read stopped at " ++ Number.hex received

/-- The report of a request that was called off after so many bytes of its chunks. -/
structure CalledOff (ask : Ask) (received : Nat) (r : ScanReport) : Prop where
  strategy : r.strategy = .failed
  image : r.isImage = true ↔ ask.IsImage
  error : r.error = some (calledOffMessage received : Text)
  analysis : r.analysis =
    if r.isImage then some (.failed ask.size (calledOffMessage received)) else none
  unhashed : r.hashes = none

theorem cancelled_message (received : Nat) :
    (Stop.cancelled received).message = calledOffMessage received := by
  have hhex : Number.signedHex received = Number.hex received := by
    rw [Number.signedHex, if_neg (by omega), String.empty_append, Int.natAbs_natCast]
  have htext : "Analysis cancelled: " ++ "read stopped at " =
      "Analysis cancelled: read stopped at " := by simp only [String.reduceAppend]
  have hmessage : (Stop.cancelled received).message =
      "Analysis cancelled: " ++ ("read stopped at " ++ Number.signedHex received) := rfl
  rw [hmessage, hhex, ← String.append_assoc, htext]
  rfl

theorem calledOff_stopped (isImage large : Bool) (hi : isImage = true ↔ ask.IsImage)
    (received : Nat) :
    CalledOff ask received
      (.stopped ask.size isImage large (Stop.cancelled received).message) := by
  rw [cancelled_message]
  exact ⟨rfl, hi, rfl, rfl, rfl⟩

/-- A request that is told to stop is at its end, and has nothing to store. -/
theorem prepare_calledOff
    (h : .polled false ∈ (prepare setup ask store).1.trace.log) :
    ∃ earlier done, (prepare setup ask store).1.trace.log = .polled false :: earlier ∧
      Reading done earlier ∧ (prepare setup ask store).1.toStore = none ∧
      CalledOff ask (bytesInChunks earlier) (prepare setup ask store).1.report := by
  have hended := prepare_ended (reading_course setup ask) store
  generalize (prepare setup ask store).1 = p at hended h ⊢
  cases hended with
  | halted isImage large hi hstop =>
    obtain ⟨done, earlier, rfl, hlog, hreading⟩ := hstop h
    refine ⟨earlier, done, hlog, hreading, rfl, ?_⟩
    rw [← hreading.received]
    exact calledOff_stopped isImage large hi _
  | past hnever => exact absurd h hnever

/-- Nobody is asked by a report. -/
theorem polled_mem_emitted {w : Surroundings} {value : Int} {t : Trace} {wanted : Bool} :
    .polled wanted ∈ (emitted w value t).log ↔ .polled wanted ∈ t.log := by
  rcases emitted_log w value t with h | ⟨v, h⟩
  · rw [h]
  · rw [h, List.mem_cons, or_iff_right nofun]

theorem emitted_log_later (w : Surroundings) (value : Int) (t : Trace) :
    ∃ later, (emitted w value t).log = later ++ t.log ∧ ∀ e ∈ later, ∃ v, e = .progressed v := by
  rcases emitted_log w value t with h | ⟨v, h⟩
  · exact ⟨[], h, fun _ he => absurd he List.not_mem_nil⟩
  · exact ⟨[.progressed v], h, fun _ he => ⟨v, List.mem_singleton.1 he⟩⟩

/-- A request that is told to stop does so at once. All that comes after the answer is a report
of progress; nothing was analyzed before, nothing is stored in whatever way the cache would do
it, and the report names the number of bytes that came in until then. A request that is never
told to stop is reported as if nobody were asked. -/
theorem cancellation_clean {σ : Type} (setup : Setup σ) (ask : Ask) (store : σ) :
    let outcome := (analyze setup ask store).1
    (.polled false ∈ outcome.trace.log → ∃ later earlier,
      outcome.trace.log = later ++ .polled false :: earlier ∧
      (∀ e ∈ later, ∃ v, e = .progressed v) ∧
      .polled false ∉ earlier ∧ .analyzed ∉ earlier ∧
      CalledOff ask (bytesInChunks earlier) outcome.report ∧
      ∀ put, analyze (setup.withPut put) ask store = analyze setup ask store) ∧
    (.polled false ∉ outcome.trace.log →
      outcome.report =
        (analyze setup (ask.amid { ask.around with wanted := none }) store).1.report) := by
  intro outcome
  have htrace : outcome.trace = emitted ask.around 100 (prepare setup ask store).1.trace := rfl
  rw [htrace, polled_mem_emitted]
  constructor
  · intro hfalse
    obtain ⟨earlier, done, hlog, hreading, hnothing, hreport⟩ := prepare_calledOff hfalse
    obtain ⟨later, hlater, hprogressed⟩ :=
      emitted_log_later ask.around 100 (prepare setup ask store).1.trace
    rw [hlog] at hlater
    refine ⟨later, earlier, hlater, hprogressed, hreading.wanted, hreading.unanalyzed, ?_, ?_⟩
    · have hsettle : outcome.report = (prepare setup ask store).1.report :=
        settle_of_toStore_none hnothing setup ask _
      rwa [hsettle]
    · intro put
      rw [analyze_eq, prepare_withPut, settle_withPut put hnothing, ← analyze_eq]
  · intro hnever
    have hresembles : ask.around.Resembles { ask.around with wanted := none } := ⟨rfl, .inr rfl⟩
    rcases analyze_alike hresembles store with ⟨-, hcut⟩ | ⟨hreport, -⟩
    · exact absurd hcut hnever
    · exact hreport

/-- Whoever asked for this analysis loses interest in it after the first chunk. -/
def leavingAsk : Ask := bareAsk.amid { bareAsk.around with wanted := some (· == 0) }

def chunkwise : Setup Unit := { config := { readChunkSize := 64 } }

theorem cancellation_clean_leaving :
    .polled false ∈ (analyze chunkwise leavingAsk ()).1.trace.log ∧
    ∃ received, CalledOff leavingAsk received (analyze chunkwise leavingAsk ()).1.report := by
  have hfalse : .polled false ∈ (analyze chunkwise leavingAsk ()).1.trace.log := by
    decide +kernel
  obtain ⟨-, earlier, -, -, -, -, hreport, -⟩ :=
    (cancellation_clean chunkwise leavingAsk ()).1 hfalse
  exact ⟨hfalse, bytesInChunks earlier, hreport⟩

example : (analyze chunkwise leavingAsk ()).1.report.error =
    some "Analysis cancelled: read stopped at 0x40" := by decide +kernel

end
end PETriage.Request
