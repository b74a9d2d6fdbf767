import Mathlib.Algebra.GroupWithZero.Nat
import PETriage.Proofs.Request.Steps

/-!
# Traces of a request

A step is followed from one trace to the next. `Leads` says what holds of the value and the trace
that it comes to, and of the cause and the trace with which it stops. `Rounds` says what one round
of reading a stretch keeps, and then so does the reading. A request reads one stretch of its file
at most, in chunks; a `Course` says what its elementary steps keep before the first chunk, between
two chunks and after the last, and then so does the whole request.
-/
namespace PETriage.Request

open Report (Analysis)

namespace Step

variable {α β ε : Type} {t : Trace} {post q : α → Trace → Prop} {final : β → Trace → Prop}
  {halt : Stop → Trace → Prop}

/-- From this trace the step comes to a value and a trace that are so, or it stops with a cause
and a trace that are so. -/
def Leads (step : Step α) (t : Trace) (post : α → Trace → Prop) (halt : Stop → Trace → Prop) :
    Prop :=
  match step.run t with
  | (.ok a, t') => post a t'
  | (.error stop, t') => halt stop t'

theorem Leads.of_ok {step : Step α} {a : α} {t' : Trace} (hr : step.run t = (.ok a, t'))
    (h : post a t') : step.Leads t post halt := by
  rw [Leads, hr]
  exact h

theorem Leads.of_error {step : Step α} {stop : Stop} {t' : Trace}
    (hr : step.run t = (.error stop, t')) (h : halt stop t') : step.Leads t post halt := by
  rw [Leads, hr]
  exact h

theorem Leads.pure {a : α} (h : post a t) : (Pure.pure a : Step α).Leads t post halt :=
  .of_ok rfl h

theorem Leads.bind {step : Step α} {next : α → Step β} (h : step.Leads t q halt)
    (hn : ∀ a t', q a t' → (next a).Leads t' final halt) :
    (step >>= next).Leads t final halt := by
  unfold Leads at h ⊢
  rw [run_bind]
  generalize step.run t = s at h ⊢
  rcases s with ⟨stop | a, t'⟩
  · exact h
  · exact hn a t' h

theorem Leads.mono {step : Step α} {halt' : Stop → Trace → Prop} (h : step.Leads t q halt)
    (hp : ∀ a t', q a t' → post a t') (hh : ∀ stop t', halt stop t' → halt' stop t') :
    step.Leads t post halt' := by
  unfold Leads at h ⊢
  generalize step.run t = s at h ⊢
  rcases s with ⟨stop | a, t'⟩
  · exact hh stop t' h
  · exact hp a t' h

theorem Ensures.leads {step : Step α} {good : α → Prop} (h : step.Ensures good) :
    step.Leads t (fun a _ => good a) fun _ _ => True := by
  have ht := h t
  unfold Leads
  generalize step.run t = s at ht ⊢
  rcases s with ⟨stop | a, t'⟩
  · trivial
  · exact ht a rfl

theorem Leads.and_ensures {step : Step α} {good : α → Prop} (h : step.Leads t post halt)
    (he : step.Ensures good) : step.Leads t (fun a t' => good a ∧ post a t') halt := by
  have ht := he t
  unfold Leads at h ⊢
  generalize step.run t = s at h ht ⊢
  rcases s with ⟨stop | a, t'⟩
  · exact h
  · exact ⟨ht a rfl, h⟩

/-- Where a step is known to come to a value, it leads to the value and the trace. -/
theorem Leads.returned {step : Step α} {good : α → Prop} (h : step.Leads t post halt)
    (hr : step.Returns good) : ∃ a t', step.run t = (.ok a, t') ∧ good a ∧ post a t' := by
  obtain ⟨a, ha, hgood⟩ := hr t
  unfold Leads at h
  generalize step.run t = s at h ha ⊢
  rcases s with ⟨stop | b, t'⟩
  · cases ha
  · cases ha
    exact ⟨a, t', rfl, hgood, h⟩

theorem Leads.ofExcept {cause : ε → Stop} {r : Except ε α} (hp : ∀ a, post a t)
    (hh : ∀ e, halt (cause e) t) : (Step.ofExcept cause r).Leads t post halt := by
  cases r with
  | ok a => exact .of_ok rfl (hp a)
  | error e => exact .of_error rfl (hh e)

theorem Leads.note {e : Event} {next : Unit → Step β}
    (h : (next ()).Leads (t.add e) final halt) : (Step.note e >>= next).Leads t final halt :=
  h

/-- What holds of an outcome, be it a value or a cause to stop. -/
def CameTo (post : α → Trace → Prop) (halt : Stop → Trace → Prop) : Except Stop α → Trace → Prop
  | .ok a, t => post a t
  | .error stop, t => halt stop t

theorem Leads.attempt {step : Step α} {halt' : Stop → Trace → Prop} (h : step.Leads t post halt) :
    step.attempt.Leads t (CameTo post halt) halt' := by
  unfold Leads at h
  have hrun : step.attempt.run t = (.ok (step.run t).1, (step.run t).2) := rfl
  refine .of_ok hrun ?_
  generalize step.run t = s at h ⊢
  rcases s with ⟨stop | a, t'⟩
  · exact h
  · exact h

end Step

/-! ## Elementary steps -/

/-- The trace after a report of progress. -/
def emitted (w : Surroundings) (value : Int) (t : Trace) : Trace := ((emit w value).run t).2

theorem emit_run (w : Surroundings) (value : Int) (t : Trace) :
    (emit w value).run t = (.ok (), emitted w value t) :=
  Prod.ext (emit_gives w value t) rfl

theorem emitted_of_unheard {w : Surroundings} (h : w.listener = none) (value : Int) (t : Trace) :
    emitted w value t = { t with progress := t.progress.raised value } := by
  simp only [emitted, emit, h, Step.run_bind, Step.run_get, Step.run_set]
  rfl

theorem emitted_of_heard {w : Surroundings} {listener : Nat → Int → Except String Unit}
    (h : w.listener = some listener) (value : Int) (t : Trace) :
    emitted w value t = { { t with progress := t.progress.raised value }.add
      (.progressed (t.progress.raised value).value) with reports := t.reports + 1 } := by
  simp only [emitted, emit, h, Step.run_bind, Step.run_get, Step.run_set, Step.run_note,
    Step.run_modify]
  -- the listener's answer is looked at, but both answers leave the same trace
  split <;> rfl

theorem emitted_progress (w : Surroundings) (value : Int) (t : Trace) :
    (emitted w value t).progress = t.progress.raised value := by
  cases h : w.listener with
  | none => rw [emitted_of_unheard h]
  | some listener => rw [emitted_of_heard h]; rfl

theorem emitted_counts (w : Surroundings) (value : Int) (t : Trace) :
    (emitted w value t).reads = t.reads ∧ (emitted w value t).polls = t.polls := by
  cases h : w.listener with
  | none => rw [emitted_of_unheard h]; exact ⟨rfl, rfl⟩
  | some listener => rw [emitted_of_heard h]; exact ⟨rfl, rfl⟩

/-- A report adds nothing but itself to what was done. -/
theorem emitted_log (w : Surroundings) (value : Int) (t : Trace) :
    (emitted w value t).log = t.log ∨ ∃ v, (emitted w value t).log = .progressed v :: t.log := by
  cases h : w.listener with
  | none => rw [emitted_of_unheard h]; exact .inl rfl
  | some listener => rw [emitted_of_heard h]; exact .inr ⟨_, rfl⟩

theorem emit_leads {β : Type} {w : Surroundings} {value : Int} {t : Trace} {next : Unit → Step β}
    {final : β → Trace → Prop} {halt : Stop → Trace → Prop}
    (h : (next ()).Leads (emitted w value t) final halt) :
    (emit w value >>= next).Leads t final halt := by
  rwa [Step.Leads, Step.run_bind, emit_run]

theorem checkWanted_run (w : Surroundings) (offset : Int) (t : Trace) :
    (checkWanted w offset).run t = match w.wanted with
      | none => (.ok (), t)
      | some wanted =>
        if wanted t.polls then (.ok (), { t with polls := t.polls + 1 }.add (.polled true))
        else (.error (.cancelled offset), { t with polls := t.polls + 1 }.add (.polled false)) := by
  unfold checkWanted
  cases w.wanted with
  | none => rfl
  | some wanted =>
    simp only [Step.run_bind, Step.run_get, Step.run_set, Step.run_note]
    cases wanted t.polls with
    | true => rfl
    | false => rfl

/-- The trace after somebody was asked and gave this answer. -/
def Trace.answered (t : Trace) (wanted : Bool) : Trace :=
  { t with polls := t.polls + 1 }.add (.polled wanted)

/-- The trace after a read that gave so many bytes. -/
def Trace.received (t : Trace) (offset length : Int) (got : Nat) : Trace :=
  { t with reads := t.reads + 1 }.add (.read offset length got)

section

variable {w : Surroundings} {offset length : Int} {t : Trace} {halt : Stop → Trace → Prop}

theorem checkWanted_leads {post : Unit → Trace → Prop} (hnone : post () t)
    (hyes : post () (t.answered true)) (hno : halt (.cancelled offset) (t.answered false)) :
    (checkWanted w offset).Leads t post halt := by
  have hrun := checkWanted_run w offset t
  cases hw : w.wanted with
  | none =>
    rw [hw] at hrun
    exact .of_ok hrun hnone
  | some wanted =>
    rw [hw] at hrun
    cases ha : wanted t.polls with
    | true =>
      simp only [ha, ↓reduceIte] at hrun
      exact .of_ok hrun hyes
    | false =>
      simp only [ha, Bool.false_eq_true, ↓reduceIte] at hrun
      exact .of_error hrun hno

theorem readAt_leads {post : ByteArray → Trace → Prop}
    (hok : ∀ piece, w.source.read t.reads offset length = .ok piece →
      post piece (t.received offset length piece.size))
    (herror : ∀ fault, w.source.read t.reads offset length = .error fault →
      halt (.unread fault) (t.received offset length 0)) :
    (readAt w offset length).Leads t post halt := by
  have hrun := readAt_run w offset length t
  cases hr : w.source.read t.reads offset length with
  | ok piece =>
    rw [hr] at hrun
    exact .of_ok hrun (hok piece hr)
  | error fault =>
    rw [hr] at hrun
    exact .of_error hrun (herror fault hr)

end

/-! ## What a log says -/

/-- How many bytes a read gave. -/
def Event.given? : Event → Option Nat
  | .read _ _ got => some got
  | _ => none

/-- How many bytes each read gave, the latest first. -/
def readSizes (log : List Event) : List Nat := log.filterMap Event.given?

theorem readSizes_read (offset length : Int) (got : Nat) (log : List Event) :
    readSizes (.read offset length got :: log) = got :: readSizes log := rfl

theorem readSizes_cons {e : Event} (h : e.given? = none) (log : List Event) :
    readSizes (e :: log) = readSizes log :=
  List.filterMap_cons_none h

theorem Trace.bytesRead_eq_sum (t : Trace) : t.bytesRead = (readSizes t.log).sum := by
  have hfrom : ∀ (log : List Event) (n : Nat),
      log.foldl (fun n e => n + e.bytes) n = n + (readSizes log).sum := by
    intro log
    induction log with
    | nil => exact fun _ => rfl
    | cons e log ih =>
      intro n
      rw [List.foldl_cons, ih]
      cases e with
      | read offset length got => rw [readSizes_read, List.sum_cons]; exact Nat.add_assoc ..
      | polled | gained | progressed | analyzed | paused => rfl
  exact (hfrom t.log 0).trans (Nat.zero_add _)

/-! ## Rounds of reading -/

section

variable {w : Surroundings} {base length chunk : Int} {onChunk : Int → Int → Step Unit}
  {inv : Int → List ByteArray → Trace → Prop} {post : List ByteArray → Trace → Prop}
  {halt : Stop → Trace → Prop}

/-- What one round of reading a stretch keeps: `inv done pieces` from each round to the next, until
there is `post pieces` after the last, or `halt` when the request stops. -/
structure Rounds (w : Surroundings) (base length chunk : Int) (onChunk : Int → Int → Step Unit)
    (inv : Int → List ByteArray → Trace → Prop) (post : List ByteArray → Trace → Prop)
    (halt : Stop → Trace → Prop) : Prop where
  poll : ∀ done pieces t, inv done pieces t → done < length →
    (checkWanted w (base + done)).Leads t (fun _ => inv done pieces) halt
  read : ∀ done pieces t, inv done pieces t → done < length →
    (readAt w (base + done) (min chunk (length - done))).Leads t
      (fun piece t => if piece.size = 0 then post pieces t else
        (onChunk (done + piece.size) length).Leads (t.add (.gained (done + piece.size) length))
          (fun _ t => inv (done + piece.size) (piece :: pieces) (t.add .paused)) halt) halt
  last : ∀ done pieces t, inv done pieces t → length ≤ done → post pieces t

theorem Rounds.leads (r : Rounds w base length chunk onChunk inv post halt) {done : Int}
    {pieces : List ByteArray} {t : Trace} (h : inv done pieces t) :
    (chunksFrom w base length chunk onChunk done pieces).Leads t post halt := by
  -- on the bytes that are left to read
  induction hm : (length - done).toNat using Nat.strongRecOn generalizing done pieces t with
  | ind left ih =>
    rw [chunksFrom]
    by_cases hlt : done < length
    · rw [if_pos hlt]
      refine (r.poll done pieces t h hlt).bind fun _ t h => ?_
      refine (r.read done pieces t h hlt).bind fun piece t h => ?_
      by_cases hz : piece.size = 0
      · rw [if_pos hz] at h ⊢
        exact .pure h
      · rw [if_neg hz] at h ⊢
        exact .note (h.bind fun _ t h => .note (ih _ (by omega) h rfl))
    · rw [if_neg hlt]
      exact .pure (r.last done pieces t h (Int.not_lt.1 hlt))

end

/-! ## The course of a request -/

section Course

variable {σ : Type} {setup : Setup σ} {ask : Ask} {w : Surroundings}
  {inv : Int → Trace → Prop} {after : Trace → Prop} {halt : Stop → Trace → Prop} {t : Trace}

/-- A large image that is analyzed neither by others nor in full. -/
structure FrontOnly (setup : Setup σ) (ask : Ask) : Prop where
  image : ask.IsImage
  large : setup.config.isLarge ask.size = .ok true
  alone : isAvailable setup.external = false
  unforced : ask.forceFull = false

/-- The stretch of its file that a request reads in chunks has this length. -/
def Stretch (setup : Setup σ) (ask : Ask) (length : Int) : Prop :=
  (FrontOnly setup ask ∧ length = clippedLength ask.size 0 setup.config.headerChunkSize) ∨
    (¬FrontOnly setup ask ∧ length = ask.size)

/-- Reports and pauses keep what holds of a trace. -/
structure Calm (w : Surroundings) (inv : Trace → Prop) : Prop where
  emit : ∀ value t, inv t → inv (emitted w value t)
  pause : ∀ t, inv t → inv (t.add .paused)

theorem calm_of_log {p : List Event → Prop} (w : Surroundings)
    (hp : ∀ v log, p log → p (.progressed v :: log)) (hq : ∀ log, p log → p (.paused :: log)) :
    Calm w fun t => p t.log where
  emit := by
    intro value t h
    rcases emitted_log w value t with hl | ⟨v, hl⟩
    · rwa [hl]
    · rw [hl]
      exact hp v _ h
  pause := fun _ h => hq _ h

/-- What the elementary steps of a request keep once it reads no more: `after` as it goes on, and
`halt` when it stops. -/
structure Aftermath (w : Surroundings) (after : Trace → Prop) (halt : Stop → Trace → Prop) :
    Prop where
  calmAfter : Calm w after
  analyzed : ∀ t, after t → after (t.add .analyzed)
  stop : ∀ stop t, (∀ offset, stop ≠ .cancelled offset) → after t → halt stop t

/-- What the elementary steps of a request keep: `inv done` once so many bytes of the stretch
are read, `after` from the end of the stretch on, and `halt` when the request stops. -/
structure Course (setup : Setup σ) (ask : Ask) (inv : Int → Trace → Prop)
    (after : Trace → Prop) (halt : Stop → Trace → Prop) : Prop
    extends Aftermath ask.around after halt where
  head : (readAt ask.around 0 Image.classifyLength).Leads {} (fun _ => inv 0) halt
  poll : ∀ done t, inv done t → (checkWanted ask.around done).Leads t (fun _ => inv done) halt
  read : ∀ length done t, Stretch setup ask length → inv done t → done < length →
    (readAt ask.around done (min setup.config.readChunkSize (length - done))).Leads t
      (fun piece t => after t ∧ (piece.size ≠ 0 → inv (done + piece.size) t)) halt
  gained : ∀ done m n t, inv done t → inv done (t.add (.gained m n))
  calm : ∀ done, Calm ask.around (inv done)
  past : ∀ done t, inv done t → after t

/-! ### Reading -/

theorem Course.rounds (c : Course setup ask inv after halt) {length : Int}
    (hl : Stretch setup ask length) :
    Rounds ask.around 0 length setup.config.readChunkSize (reportSpan ask.around)
      (fun done _ => inv done) (fun _ => after) halt where
  poll := by
    intro done _ t h _
    rw [Int.zero_add]
    exact c.poll done t h
  read := by
    intro done _ t h hlt
    rw [Int.zero_add]
    refine (c.read length done t hl h hlt).mono (fun piece t h => ?_) fun _ _ h => h
    split
    · exact h.1
    · rename_i hz
      have hgained := c.gained _ (done + piece.size) length t (h.2 hz)
      have hemitted := (c.calm _).emit (spanValue 40 60 (done + piece.size) length) _ hgained
      exact .of_ok (emit_run _ _ _) ((c.calm _).pause _ hemitted)
  last := fun done _ t h _ => c.past done t h

theorem readChunked_leads (c : Course setup ask inv after halt) {length : Int}
    (hl : Stretch setup ask (clippedLength ask.size 0 length)) (h : inv 0 t) :
    (readChunked ask.around 0 length setup.config.readChunkSize (reportSpan ask.around)).Leads t
      (fun _ => after) halt :=
  ((c.rounds hl).leads h).bind fun _ _ h => .pure h

theorem clippedLength_size (n : Nat) : clippedLength n 0 n = n := by
  unfold clippedLength
  omega

theorem readAll_leads (c : Course setup ask inv after halt) (hf : ¬FrontOnly setup ask)
    (h : inv 0 t) : (readAll setup.config ask.around).Leads t (fun _ => after) halt :=
  readChunked_leads c (.inr ⟨hf, clippedLength_size _⟩) h

/-- What holds once pieces were taken, up to the end or to a failure. -/
def TakenTo (after : Trace → Prop) (halt : Stop → Trace → Prop) :
    List ByteArray × Option Stop → Trace → Prop
  | (_, none), t => after t
  | (_, some stop), t => halt stop t

/-- Taking the pieces never stops itself, whatever would hold if it did. -/
theorem piecesFrom_leads (c : Course setup ask inv after halt)
    (hl : Stretch setup ask ask.size) {done : Int} {pieces : List ByteArray}
    {halt' : Stop → Trace → Prop} (h : inv done t) :
    (piecesFrom ask.around setup.config.readChunkSize done pieces).Leads t
      (TakenTo after halt) halt' := by
  induction hm : ((ask.size : Int) - done).toNat using Nat.strongRecOn
    generalizing done pieces t with
  | ind left ih =>
    rw [piecesFrom]
    by_cases hlt : done < ask.around.source.size
    · simp only [hlt, ↓reduceIte]
      have hread := (c.poll done t h).bind fun _ t h => c.read ask.size done t hl h hlt
      refine hread.attempt.bind fun r t h => ?_
      cases r with
      | error stop => exact .pure h
      | ok piece =>
        by_cases hz : piece.size = 0
        · simp only [hz, ↓reduceIte]
          exact .pure h.1
        · simp only [hz, ↓reduceIte]
          simp only [Ask.size] at hm
          exact ih _ (by simp only [Ask.size]; omega) (h.2 hz) rfl
    · simp only [hlt, ↓reduceIte]
      exact .pure (c.past done t h)

theorem allPieces_leads (c : Course setup ask inv after halt)
    (hl : Stretch setup ask ask.size) (h : inv 0 t) :
    (allPieces ask.around setup.config.readChunkSize).Leads t (fun _ => after) halt := by
  have hpieces : (pieces ask.around setup.config.readChunkSize).Leads t
      (TakenTo after halt) halt := by
    refine (piecesFrom_leads c hl h).bind fun r t h => .pure ?_
    rcases r with ⟨taken, _ | stop⟩
    · exact h
    · exact h
  refine hpieces.bind fun r t h => ?_
  rcases r with ⟨taken, _ | stop⟩
  · exact .pure h
  · exact .of_error rfl h

theorem hashSource_leads (c : Course setup ask inv after halt) (hi : ¬ask.IsImage)
    (h : inv 0 t) : (hashSource setup ask.around).Leads t (fun _ => after) halt := by
  unfold hashSource
  have h := (c.calm 0).pause t h
  refine .note ?_
  cases setup.hasher with
  | broken reason => exact .of_error rfl (c.stop _ _ (fun _ => nofun) (c.past _ _ h))
  | ofPieces hash =>
    have hl : Stretch setup ask ask.size := .inr ⟨fun hf => hi hf.image, rfl⟩
    exact (allPieces_leads c hl h).bind fun _ _ h => .pure h

/-- What a request knows of its file before it reads on. -/
def Front.Of (setup : Setup σ) (ask : Ask) : Front → Prop
  | .hashed _ => ¬ask.IsImage
  | .image large => ask.IsImage ∧ setup.config.isLarge ask.size = .ok large
  | .unsized reason => ask.IsImage ∧ setup.config.isLarge ask.size = .error reason

theorem classify_leads (c : Course setup ask inv after halt) :
    (classify setup ask.around).Leads {} (fun front t => front.Of setup ask ∧ after t ∧
      (ask.IsImage → inv 0 t)) fun stop t => ¬ask.IsImage ∧ halt stop t := by
  have hhead := c.head
  simp only [Step.Leads, readAt_run] at hhead
  have hread : (readAt ask.around 0 Image.classifyLength).Leads {}
      (fun head t => ask.around.source.read 0 0 Image.classifyLength = .ok head ∧ inv 0 t)
      fun stop t => ¬ask.IsImage ∧ halt stop t := by
    simp only [Step.Leads, readAt_run]
    cases hr : ask.around.source.read 0 0 Image.classifyLength with
    | error fault =>
      rw [hr] at hhead
      exact ⟨by simp [Ask.IsImage, hr], hhead⟩
    | ok head =>
      rw [hr] at hhead
      exact ⟨rfl, hhead⟩
  unfold classify
  refine hread.bind fun head t ⟨hr, h⟩ => ?_
  have hi : ask.IsImage ↔ Image.startsAsImage head = true := by simp [Ask.IsImage, hr]
  have h := (c.calm 0).emit 10 t h
  refine emit_leads ?_
  cases hs : Image.startsAsImage head with
  | false =>
    have hn : ¬ask.IsImage := by simp [hi, hs]
    simp only [Bool.false_eq_true, ↓reduceIte]
    refine Step.Leads.bind ((hashSource_leads c hn h).mono (fun _ _ h => h) ?_) fun hashes t h => ?_
    · exact fun _ _ h => ⟨hn, h⟩
    · exact .pure ⟨hn, h, fun hi => absurd hi hn⟩
  | true =>
    have hi : ask.IsImage := hi.2 hs
    simp only [↓reduceIte]
    cases hl : setup.config.isLarge ask.around.source.size with
    | error reason => exact .pure ⟨⟨hi, hl⟩, c.past 0 _ h, fun _ => h⟩
    | ok large =>
      have h := (c.calm 0).emit 20 _ h
      refine emit_leads ?_
      exact .pure ⟨⟨hi, hl⟩, c.past 0 _ h, fun _ => h⟩

/-! ### Analyzing -/

theorem pauses_leads (hc : Calm w after) (n : Nat) (h : after t) :
    (pauses n).Leads t (fun _ => after) halt := by
  induction n generalizing t with
  | zero => exact .pure h
  | succ n ih => exact .note (ih (hc.pause t h))

theorem parseDirect_leads (c : Aftermath w after halt) (config : Config) (b : ByteArray)
    (request : Direct.Request) (h : after t) :
    (parseDirect config w b request).Leads t (fun _ => after) halt := by
  unfold parseDirect
  refine Step.Leads.bind (q := fun _ => after) (.ofExcept (fun _ => h) fun e => ?_)
    fun r t h => ?_
  · refine c.stop _ t (fun offset => ?_) h
    cases e <;> exact nofun
  refine (pauses_leads c.calmAfter _ h).bind fun _ t h => ?_
  exact emit_leads (.pure (c.calmAfter.emit 70 t h))

theorem directFull_leads (c : Aftermath w after halt) (config : Config) (b : ByteArray)
    (h : after t) : (directFull config w b).Leads t (fun _ => after) halt :=
  (parseDirect_leads c config b _ h).bind fun _ _ h => .pure h

theorem degraded_leads (c : Aftermath w after halt) (config : Config) (b : ByteArray)
    (h : after t) : (degraded config w b).Leads t (fun _ => after) halt :=
  (parseDirect_leads c config b _ h).bind fun _ _ h => .pure h

theorem tryExternal_leads (c : Aftermath w after halt) (setup : Setup σ) (b : ByteArray)
    (h : after t) : (tryExternal setup w b).Leads t (fun _ => after) halt := by
  unfold tryExternal
  cases setup.external with
  | none => exact .pure h
  | some a =>
    refine Step.Leads.bind (q := fun _ => after) ?_ fun r t h => ?_
    · unfold External.Analyzer.run
      cases a.available with
      | false => exact .pure h
      | true =>
        cases setup.config.externalTimeout.fault? with
        | some reason => exact .pure h
        | none =>
          cases setup.config.externalTimeout.expired with
          | true => exact (pauses_leads c.calmAfter 3 h).bind fun _ _ h => .pure h
          | false =>
            have h := c.calmAfter.pause _ (c.analyzed t h)
            refine .note (.note ?_)
            cases a.analyze b <;> exact .pure h
    · cases r with
      | error e => exact .pure h
      | ok o =>
        refine Step.Leads.bind (.ofExcept (fun _ => h) fun e => ?_) fun _ _ h => .pure h
        exact c.stop _ t (fun _ => nofun) h

theorem analyzeSmall_leads (c : Course setup ask inv after halt) (hf : ¬FrontOnly setup ask)
    (h : inv 0 t) : (analyzeSmall setup ask.around).Leads t (fun _ => after) halt := by
  unfold analyzeSmall
  refine (readAll_leads c hf h).bind fun b t h => ?_
  cases setup.config.delegateSmallFiles with
  | false => exact directFull_leads c.toAftermath _ b h
  | true =>
    refine (tryExternal_leads c.toAftermath setup b h).bind fun given t h => ?_
    cases given with
    | some analysis => exact emit_leads (.pure (c.calmAfter.emit 70 t h))
    | none => exact directFull_leads c.toAftermath _ b h

/-- With all the bytes read already, what is left to do reads no more. -/
theorem analyzeAlone_whole_leads (c : Course setup ask inv after halt) (b : ByteArray)
    (h : after t) :
    (analyzeAlone setup ask.around ask.forceFull (some b)).Leads t (fun _ => after) halt := by
  unfold analyzeAlone
  cases ask.forceFull with
  | true => exact directFull_leads c.toAftermath _ b h
  | false =>
    refine Step.Leads.bind (q := fun _ => after) (.ofExcept (fun _ => h) fun e => ?_)
      fun stop t h => degraded_leads c.toAftermath _ (Bytes.window b 0 stop) h
    exact c.stop _ t (fun _ => nofun) h

theorem analyzeAlone_leads (c : Course setup ask inv after halt) (hi : ask.IsImage)
    (hl : setup.config.isLarge ask.size = .ok true) (ha : isAvailable setup.external = false)
    (h : inv 0 t) :
    (analyzeAlone setup ask.around ask.forceFull none).Leads t (fun _ => after) halt := by
  unfold analyzeAlone
  cases hf : ask.forceFull with
  | true =>
    have hn : ¬FrontOnly setup ask := fun hn => nomatch hf.symm.trans hn.unforced
    exact (readAll_leads c hn h).bind fun b t h => directFull_leads c.toAftermath _ b h
  | false =>
    have hfront : FrontOnly setup ask := ⟨hi, hl, ha, hf⟩
    exact (readChunked_leads c (.inl ⟨hfront, rfl⟩) h).bind fun b t h =>
      degraded_leads c.toAftermath _ b h

theorem analyzeLarge_leads (c : Course setup ask inv after halt) (hi : ask.IsImage)
    (hl : setup.config.isLarge ask.size = .ok true) (h : inv 0 t) :
    (analyzeLarge setup ask.around ask.forceFull).Leads t (fun _ => after) halt := by
  unfold analyzeLarge
  cases ha : isAvailable setup.external with
  | false => exact analyzeAlone_leads c hi hl ha h
  | true =>
    have hn : ¬FrontOnly setup ask := fun hn => nomatch ha.symm.trans hn.alone
    refine (readAll_leads c hn h).bind fun b t h => ?_
    refine (tryExternal_leads c.toAftermath setup b h).bind fun given t h => ?_
    cases given with
    | some analysis => exact emit_leads (.pure (c.calmAfter.emit 70 t h))
    | none => exact analyzeAlone_whole_leads c b h

theorem analyzeImage_leads (c : Course setup ask inv after halt) {large : Bool}
    (hi : ask.IsImage) (hl : setup.config.isLarge ask.size = .ok large) (h : inv 0 t) :
    (analyzeImage setup ask large).Leads t (fun _ => after) halt := by
  unfold analyzeImage
  have h := (c.calm 0).emit 30 t h
  refine emit_leads ?_
  cases large with
  | false =>
    have hn : ¬FrontOnly setup ask := fun hn => nomatch hl.symm.trans hn.large
    refine (analyzeSmall_leads c hn h).bind fun r t h => ?_
    exact emit_leads (.pure (c.calmAfter.emit 85 t h))
  | true =>
    refine (analyzeLarge_leads c hi hl h).bind fun r t h => ?_
    exact emit_leads (.pure (c.calmAfter.emit 85 t h))

/-! ### Requests -/

/-- How a request stands when it may store something: stopped, or past all that it reads. -/
inductive Ended (ask : Ask) (after : Trace → Prop) (halt : Stop → Trace → Prop) : Prepared → Prop
  | halted {stop : Stop} {t : Trace} (isImage large : Bool) (hi : isImage = true ↔ ask.IsImage)
      (h : halt stop t) :
      Ended ask after halt ⟨.stopped ask.size isImage large stop.message, t, none⟩
  | past {p : Prepared} (h : after p.trace) : Ended ask after halt p

theorem prepareImage_ended (c : Course setup ask inv after halt) {large : Bool}
    (hi : ask.IsImage) (hl : setup.config.isLarge ask.size = .ok large) (h : inv 0 t) :
    Ended ask after halt (prepareImage setup ask large t) := by
  have hrun := analyzeImage_leads c hi hl h
  unfold Step.Leads at hrun
  unfold prepareImage
  generalize (analyzeImage setup ask large).run t = s at hrun ⊢
  rcases s with ⟨stop | ⟨a, way⟩, t'⟩
  · exact .halted true large (by simp [hi]) hrun
  · exact .past hrun

theorem prepare_ended (c : Course setup ask inv after halt) (store : σ) :
    Ended ask after halt (prepare setup ask store).1 := by
  have hrun := classify_leads c
  unfold Step.Leads at hrun
  unfold prepare
  generalize (classify setup ask.around).run {} = s at hrun ⊢
  rcases s with ⟨stop | front, t⟩
  · exact .halted false false (by simp [hrun.1]) hrun.2
  obtain ⟨hfront, hafter, hinv⟩ := hrun
  cases front with
  | hashed hashes => exact .past hafter
  | unsized reason => exact .past hafter
  | image large =>
    simp only
    rcases lookup setup ask store with ⟨_ | found, store'⟩
    · exact prepareImage_ended c hfront.1 hfront.2 (hinv hfront.1)
    · exact .past hafter

/-- What the steps keep up to the end or to a stop alike holds of a whole request. -/
theorem prepare_keeps (c : Course setup ask inv after fun _ => after) (store : σ) :
    after (prepare setup ask store).1.trace := by
  have hended := prepare_ended c store
  generalize (prepare setup ask store).1 = p at hended ⊢
  cases hended with
  | halted isImage large hi h => exact h
  | past h => exact h

theorem analyze_keeps (c : Course setup ask inv after fun _ => after) (store : σ) :
    after (analyze setup ask store).1.trace :=
  c.calmAfter.emit 100 _ (prepare_keeps c store)

end Course

theorem analyze_eq {σ : Type} (setup : Setup σ) (ask : Ask) (store : σ) :
    analyze setup ask store =
      settle setup ask (prepare setup ask store).1 (prepare setup ask store).2 := rfl

theorem settle_trace {σ : Type} (setup : Setup σ) (ask : Ask) (p : Prepared) (store : σ) :
    (settle setup ask p store).1.trace = emitted ask.around 100 p.trace := rfl

end PETriage.Request
