import PETriage.Proofs.Request.Traces

/-!
# Those who look on

Who is asked whether a request is still wanted may end it, but as long as it goes on neither they
nor the one who listens to its progress have a part in what it finds. Two requests for one file
that differ in their onlookers are followed side by side; they come to the same, unless the first
is cut short by somebody whom the second does not ask.
-/
namespace PETriage.Request

open Report (Analysis)

/-- The same file is read, and those who are asked are the same or nobody. -/
structure Surroundings.Resembles (w w' : Surroundings) : Prop where
  source : w.source = w'.source
  wanted : w.wanted = w'.wanted ∨ w'.wanted = none

/-- As many reads were made, and as many questions asked of the same people. -/
structure Trace.Beside (w w' : Surroundings) (t t' : Trace) : Prop where
  reads : t.reads = t'.reads
  polls : w.wanted = w'.wanted → t.polls = t'.polls

/-- A request was told to stop by somebody whom the other does not ask. -/
def CutShort (w w' : Surroundings) (t : Trace) : Prop :=
  w.wanted ≠ w'.wanted ∧ .polled false ∈ t.log

variable {w w' : Surroundings}

namespace Step

variable {α β ε : Type}

/-- From traces that stand side by side both steps come to the same and to such traces again,
unless the first one is cut short. -/
def Alike (w w' : Surroundings) (step step' : Step α) : Prop := ∀ t t', t.Beside w w' t' →
  (∃ stop, (step.run t).1 = .error stop ∧ CutShort w w' (step.run t).2) ∨
  ((step.run t).1 = (step'.run t').1 ∧ (step.run t).2.Beside w w' (step'.run t').2)

theorem Alike.pure (a : α) : Alike w w' (Pure.pure a) (Pure.pure a) := fun _ _ h => .inr ⟨rfl, h⟩

theorem Alike.throw (stop : Stop) :
    Alike w w' (MonadExcept.throw stop : Step α) (MonadExcept.throw stop) :=
  fun _ _ h => .inr ⟨rfl, h⟩

theorem Alike.bind {step step' : Step α} {next next' : α → Step β} (h : Alike w w' step step')
    (hn : ∀ a, Alike w w' (next a) (next' a)) : Alike w w' (step >>= next) (step' >>= next') := by
  intro t t' ht
  have hs := h t t' ht
  rw [run_bind, run_bind]
  generalize step.run t = s at hs ⊢
  generalize step'.run t' = s' at hs ⊢
  rcases hs with ⟨stop, hstop, hcut⟩ | ⟨hr, ht⟩
  · rcases s with ⟨r, t⟩
    cases hstop
    exact .inl ⟨stop, rfl, hcut⟩
  · rcases s with ⟨stop | a, t⟩
    · rcases s' with ⟨r', t'⟩
      cases hr
      exact .inr ⟨rfl, ht⟩
    · rcases s' with ⟨r', t'⟩
      cases hr
      exact hn a t t' ht

theorem Alike.ofExcept (cause : ε → Stop) (r : Except ε α) :
    Alike w w' (Step.ofExcept cause r) (Step.ofExcept cause r) := by
  cases r with
  | ok a => exact .pure a
  | error e => exact .throw (cause e)

theorem attempt_run (step : Step α) (t : Trace) :
    step.attempt.run t = (.ok (step.run t).1, (step.run t).2) := rfl

theorem Alike.note (e : Event) : Alike w w' (Step.note e) (Step.note e) :=
  fun _ _ h => .inr ⟨rfl, ⟨h.reads, h.polls⟩⟩

end Step

open Step (Alike)

theorem emit_alike (value : Int) : Alike w w' (emit w value) (emit w' value) := by
  intro t t' h
  obtain ⟨hreads, hpolls⟩ := emitted_counts w value t
  obtain ⟨hreads', hpolls'⟩ := emitted_counts w' value t'
  rw [emit_run, emit_run]
  refine .inr ⟨rfl, ?_, ?_⟩
  · exact hreads.trans (h.reads.trans hreads'.symm)
  · exact fun hw => hpolls.trans ((h.polls hw).trans hpolls'.symm)

theorem pauses_alike (n : Nat) : Alike w w' (pauses n) (pauses n) := by
  induction n with
  | zero => exact .pure ()
  | succ n ih => exact (Alike.note .paused).bind fun _ => ih

theorem checkWanted_alike (h : w.Resembles w') (offset : Int) :
    Alike w w' (checkWanted w offset) (checkWanted w' offset) := by
  intro t t' ht
  rw [checkWanted_run, checkWanted_run]
  by_cases hw : w.wanted = w'.wanted
  · have hpolls := ht.polls hw
    rw [← hw]
    cases w.wanted with
    | none => exact .inr ⟨rfl, ht⟩
    | some wanted =>
      simp only [hpolls]
      cases wanted t'.polls with
      | true => exact .inr ⟨rfl, ht.reads, fun _ => rfl⟩
      | false => exact .inr ⟨rfl, ht.reads, fun _ => rfl⟩
  · rw [h.wanted.resolve_left hw]
    cases hs : w.wanted with
    | none => exact .inr ⟨rfl, ht⟩
    | some wanted =>
      simp only
      cases wanted t.polls with
      | true => exact .inr ⟨rfl, ht.reads, fun he => absurd he hw⟩
      | false => exact .inl ⟨_, rfl, hw, List.mem_cons_self⟩

theorem readAt_alike (h : w.Resembles w') (offset length : Int) :
    Alike w w' (readAt w offset length) (readAt w' offset length) := by
  intro t t' ht
  rw [readAt_run, readAt_run, h.source, ht.reads]
  cases w'.source.read t'.reads offset length with
  | ok b => exact .inr ⟨rfl, rfl, ht.polls⟩
  | error fault => exact .inr ⟨rfl, rfl, ht.polls⟩

section

variable {σ : Type} (setup : Setup σ)

theorem chunksFrom_alike (h : w.Resembles w') (base length chunk done : Int)
    (pieces : List ByteArray) :
    Alike w w' (chunksFrom w base length chunk (reportSpan w) done pieces)
      (chunksFrom w' base length chunk (reportSpan w') done pieces) := by
  induction hm : (length - done).toNat using Nat.strongRecOn generalizing done pieces with
  | ind left ih =>
    rw [chunksFrom, chunksFrom]
    split
    · refine (checkWanted_alike h _).bind fun _ => (readAt_alike h _ _).bind fun piece => ?_
      split
      · exact .pure pieces
      · refine (Alike.note _).bind fun _ => (emit_alike _).bind fun _ => ?_
        refine (Alike.note .paused).bind fun _ => ?_
        exact ih _ (by omega) _ _ rfl
    · exact .pure pieces

theorem readChunked_alike (h : w.Resembles w') (offset length chunk : Int) :
    Alike w w' (readChunked w offset length chunk (reportSpan w))
      (readChunked w' offset length chunk (reportSpan w')) := by
  unfold readChunked
  rw [h.source]
  exact (chunksFrom_alike h _ _ _ _ _).bind fun _ => .pure _

theorem readAll_alike (h : w.Resembles w') (config : Config) :
    Alike w w' (readAll config w) (readAll config w') := by
  unfold readAll
  rw [h.source]
  exact readChunked_alike h _ _ _

/-- The pieces of a source are handed out with the cause that ended them, so a request that is
cut short here comes to a value first. -/
theorem piecesFrom_alike (h : w.Resembles w') (chunk offset : Int) (pieces : List ByteArray)
    {t t' : Trace} (ht : t.Beside w w' t') :
    (∃ taken stop, ((piecesFrom w chunk offset pieces).run t).1 = .ok (taken, some stop) ∧
      CutShort w w' ((piecesFrom w chunk offset pieces).run t).2) ∨
    (((piecesFrom w chunk offset pieces).run t).1 = ((piecesFrom w' chunk offset pieces).run t').1 ∧
      ((piecesFrom w chunk offset pieces).run t).2.Beside w w'
        ((piecesFrom w' chunk offset pieces).run t').2) := by
  induction hm : (w.source.size - offset).toNat using Nat.strongRecOn
    generalizing offset pieces t t' with
  | ind left ih =>
    rw [piecesFrom, piecesFrom, ← h.source]
    by_cases hlt : offset < w.source.size
    · simp only [hlt, ↓reduceIte]
      have hread := ((checkWanted_alike h offset).bind fun _ =>
        readAt_alike h offset (min chunk (w.source.size - offset))) t t' ht
      rw [Step.run_bind, Step.run_bind, Step.attempt_run, Step.attempt_run]
      generalize (checkWanted w offset >>= _ : Step ByteArray).run t = s at hread ⊢
      generalize (checkWanted w' offset >>= _ : Step ByteArray).run t' = s' at hread ⊢
      rcases s with ⟨r, t⟩
      rcases s' with ⟨r', t'⟩
      rcases hread with ⟨stop, hstop, hcut⟩ | ⟨hr, ht⟩
      · cases hstop
        exact .inl ⟨pieces, stop, rfl, hcut⟩
      · cases hr
        cases r with
        | error stop => exact .inr ⟨rfl, ht⟩
        | ok piece =>
          simp only
          by_cases hz : piece.size = 0
          · simp only [hz, ↓reduceIte]
            exact .inr ⟨rfl, ht⟩
          · simp only [hz, ↓reduceIte]
            exact ih _ (by omega) _ _ ht rfl
    · simp only [hlt, ↓reduceIte]
      exact .inr ⟨rfl, ht⟩

theorem allPieces_alike (h : w.Resembles w') (chunk : Int) :
    Alike w w' (allPieces w chunk) (allPieces w' chunk) := by
  intro t t' ht
  have hpieces := piecesFrom_alike h chunk 0 [] ht
  simp only [allPieces, pieces, Step.run_bind]
  generalize (piecesFrom w chunk 0 []).run t = s at hpieces ⊢
  generalize (piecesFrom w' chunk 0 []).run t' = s' at hpieces ⊢
  rcases s with ⟨r, t⟩
  rcases s' with ⟨r', t'⟩
  rcases hpieces with ⟨taken, stop, hstop, hcut⟩ | ⟨hr, ht⟩
  · cases hstop
    exact .inl ⟨stop, rfl, hcut⟩
  · cases hr
    rcases r with stop | ⟨taken, _ | stop⟩
    · exact .inr ⟨rfl, ht⟩
    · exact .inr ⟨rfl, ht⟩
    · exact .inr ⟨rfl, ht⟩

theorem hashSource_alike (h : w.Resembles w') :
    Alike w w' (hashSource setup w) (hashSource setup w') := by
  unfold hashSource
  refine (Alike.note .paused).bind fun _ => ?_
  cases setup.hasher with
  | broken reason => exact .throw _
  | ofPieces hash => exact (allPieces_alike h _).bind fun _ => .pure _

theorem classify_alike (h : w.Resembles w') :
    Alike w w' (classify setup w) (classify setup w') := by
  unfold classify
  rw [h.source]
  refine (readAt_alike h _ _).bind fun head => (emit_alike 10).bind fun _ => ?_
  cases Image.startsAsImage head with
  | false => exact (hashSource_alike setup h).bind fun _ => .pure _
  | true =>
    simp only [↓reduceIte]
    cases setup.config.isLarge w'.source.size with
    | error reason => exact .pure _
    | ok large => exact (emit_alike 20).bind fun _ => .pure _

/-! ## Analyzing -/

theorem run_alike (a : External.Analyzer) (b : ByteArray) (limit : Seconds) :
    Alike w w' (a.run b limit) (a.run b limit) := by
  unfold External.Analyzer.run
  cases a.available with
  | false => exact .pure _
  | true =>
    cases limit.fault? with
    | some reason => exact .pure _
    | none =>
      cases limit.expired with
      | true => exact (pauses_alike 3).bind fun _ => .pure _
      | false =>
        refine (Alike.note .analyzed).bind fun _ => (Alike.note .paused).bind fun _ => ?_
        cases a.analyze b <;> exact .pure _

theorem tryExternal_alike (h : w.Resembles w') (b : ByteArray) :
    Alike w w' (tryExternal setup w b) (tryExternal setup w' b) := by
  unfold tryExternal
  rw [h.source]
  cases setup.external with
  | none => exact .pure none
  | some a =>
    refine (run_alike a b _).bind fun r => ?_
    cases r with
    | error e => exact .pure none
    | ok o => exact (Alike.ofExcept _ _).bind fun _ => .pure _

theorem parseDirect_alike (config : Config) (b : ByteArray) (request : Direct.Request) :
    Alike w w' (parseDirect config w b request) (parseDirect config w' b request) := by
  unfold parseDirect
  refine (Alike.ofExcept _ _).bind fun r => (pauses_alike _).bind fun _ => ?_
  exact (emit_alike 70).bind fun _ => .pure _

theorem directFull_alike (h : w.Resembles w') (config : Config) (b : ByteArray) :
    Alike w w' (directFull config w b) (directFull config w' b) := by
  unfold directFull
  rw [h.source]
  exact (parseDirect_alike _ _ _).bind fun _ => .pure _

theorem degraded_alike (h : w.Resembles w') (config : Config) (b : ByteArray) :
    Alike w w' (degraded config w b) (degraded config w' b) := by
  unfold degraded
  rw [h.source]
  exact (parseDirect_alike _ _ _).bind fun _ => .pure _

theorem analyzeSmall_alike (h : w.Resembles w') :
    Alike w w' (analyzeSmall setup w) (analyzeSmall setup w') := by
  unfold analyzeSmall
  refine (readAll_alike h _).bind fun b => ?_
  cases setup.config.delegateSmallFiles with
  | false => exact directFull_alike h _ b
  | true =>
    refine (tryExternal_alike setup h b).bind fun given => ?_
    cases given with
    | some analysis => exact (emit_alike 70).bind fun _ => .pure _
    | none => exact directFull_alike h _ b

theorem analyzeAlone_alike (h : w.Resembles w') (forceFull : Bool) (whole : Option ByteArray) :
    Alike w w' (analyzeAlone setup w forceFull whole) (analyzeAlone setup w' forceFull whole) := by
  unfold analyzeAlone
  cases forceFull with
  | true =>
    cases whole with
    | some b => exact directFull_alike h _ b
    | none => exact (readAll_alike h _).bind fun b => directFull_alike h _ b
  | false =>
    cases whole with
    | some b =>
      exact (Alike.ofExcept _ _).bind fun stop => degraded_alike h _ (Bytes.window b 0 stop)
    | none => exact (readChunked_alike h _ _ _).bind fun b => degraded_alike h _ b

theorem analyzeLarge_alike (h : w.Resembles w') (forceFull : Bool) :
    Alike w w' (analyzeLarge setup w forceFull) (analyzeLarge setup w' forceFull) := by
  unfold analyzeLarge
  cases isAvailable setup.external with
  | false => exact analyzeAlone_alike setup h forceFull none
  | true =>
    refine (readAll_alike h _).bind fun b => (tryExternal_alike setup h b).bind fun given => ?_
    cases given with
    | some analysis => exact (emit_alike 70).bind fun _ => .pure _
    | none => exact analyzeAlone_alike setup h forceFull (some b)

/-- The same request with other onlookers. -/
def Ask.amid (ask : Ask) (w : Surroundings) : Ask := { ask with around := w }

theorem analyzeImage_alike {ask : Ask} (h : ask.around.Resembles w') (large : Bool) :
    Alike ask.around w' (analyzeImage setup ask large)
      (analyzeImage setup (ask.amid w') large) := by
  unfold analyzeImage
  refine (emit_alike 30).bind fun _ => ?_
  cases large with
  | false =>
    refine (analyzeSmall_alike setup h).bind fun r => ?_
    exact (emit_alike 85).bind fun _ => .pure r
  | true =>
    refine (analyzeLarge_alike setup h _).bind fun r => ?_
    exact (emit_alike 85).bind fun _ => .pure r

/-! ## Whole requests -/

section

variable {setup} {ask : Ask}

theorem prepareImage_alike (h : ask.around.Resembles w') (large : Bool) {t t' : Trace}
    (ht : t.Beside ask.around w' t') :
    CutShort ask.around w' (prepareImage setup ask large t).trace ∨
    ((prepareImage setup ask large t).report = (prepareImage setup (ask.amid w') large t').report ∧
      (prepareImage setup ask large t).toStore =
        (prepareImage setup (ask.amid w') large t').toStore) := by
  have hsize : (ask.amid w').size = ask.size := congrArg Source.size h.source.symm
  have hkey : (ask.amid w').usableKey = ask.usableKey := rfl
  have hrun := analyzeImage_alike setup h large t t' ht
  simp only [prepareImage, hsize, hkey]
  generalize (analyzeImage setup ask large).run t = s at hrun ⊢
  generalize (analyzeImage setup (ask.amid w') large).run t' = s' at hrun ⊢
  rcases s with ⟨r, t⟩
  rcases s' with ⟨r', t'⟩
  rcases hrun with ⟨stop, hstop, hcut⟩ | ⟨hr, -⟩
  · cases hstop
    exact .inl hcut
  · cases hr
    cases r with
    | error stop => exact .inr ⟨rfl, rfl⟩
    | ok r => exact .inr ⟨rfl, rfl⟩

theorem prepare_alike (h : ask.around.Resembles w') (store : σ) :
    CutShort ask.around w' (prepare setup ask store).1.trace ∨
    ((prepare setup ask store).1.report = (prepare setup (ask.amid w') store).1.report ∧
      (prepare setup ask store).1.toStore = (prepare setup (ask.amid w') store).1.toStore ∧
      (prepare setup ask store).2 = (prepare setup (ask.amid w') store).2) := by
  have hsize : (ask.amid w').size = ask.size := congrArg Source.size h.source.symm
  have hlookup : lookup setup (ask.amid w') store = lookup setup ask store := rfl
  have haround : (ask.amid w').around = w' := rfl
  have hrun := classify_alike setup h {} {} ⟨rfl, fun _ => rfl⟩
  simp only [prepare, hsize, hlookup, haround]
  generalize (classify setup ask.around).run {} = s at hrun ⊢
  generalize (classify setup w').run {} = s' at hrun ⊢
  rcases s with ⟨r, t⟩
  rcases s' with ⟨r', t'⟩
  rcases hrun with ⟨stop, hstop, hcut⟩ | ⟨hr, ht⟩
  · cases hstop
    exact .inl hcut
  cases hr
  rcases r with stop | front
  · exact .inr ⟨rfl, rfl, rfl⟩
  cases front with
  | hashed hashes => exact .inr ⟨rfl, rfl, rfl⟩
  | unsized reason => exact .inr ⟨rfl, rfl, rfl⟩
  | image large =>
    simp only
    rcases lookup setup ask store with ⟨_ | found, store'⟩
    · rcases prepareImage_alike h large ht with hcut | ⟨hreport, hstore⟩
      · exact .inl hcut
      · exact .inr ⟨hreport, hstore, rfl⟩
    · exact .inr ⟨rfl, rfl, rfl⟩

theorem settle_amid (h : ask.around.source = w'.source) {p p' : Prepared}
    (hr : p.report = p'.report) (hs : p.toStore = p'.toStore) (store : σ) :
    (settle setup ask p store).1.report = (settle setup (ask.amid w') p' store).1.report ∧
    (settle setup ask p store).2 = (settle setup (ask.amid w') p' store).2 := by
  have hsize : (ask.amid w').size = ask.size := congrArg Source.size h.symm
  unfold settle
  rw [hr, hs, hsize]
  exact ⟨rfl, rfl⟩

/-- A request that is not cut short is reported as with other onlookers, and leaves the store as
it does with them. -/
theorem analyze_alike (h : ask.around.Resembles w') (store : σ) :
    CutShort ask.around w' (prepare setup ask store).1.trace ∨
    ((analyze setup ask store).1.report = (analyze setup (ask.amid w') store).1.report ∧
      (analyze setup ask store).2 = (analyze setup (ask.amid w') store).2) := by
  rcases prepare_alike h store with hcut | ⟨hreport, htoStore, hstore⟩
  · exact .inl hcut
  · refine .inr ?_
    rw [analyze_eq, analyze_eq, hstore]
    exact settle_amid h.source hreport htoStore _

end
end
end PETriage.Request
