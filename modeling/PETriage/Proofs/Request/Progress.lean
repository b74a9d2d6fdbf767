import PETriage.Proofs.Request.Onlookers

/-!
# Progress that never falls

A listener is given the greatest value reported so far, cut to a hundred. `Steady` says so of all
that was heard up to a trace; each elementary step keeps it, hence each request from its first
report to the one that ends it at a hundred. What the listener does with the values, and whether
it fails over one of them, changes nothing.
-/
namespace PETriage.Request

/-! ## What is heard -/

theorem heard_progressed (t : Trace) (v : Int) :
    (t.add (.progressed v)).heard = t.heard ++ [v] :=
  List.reverse_cons

theorem emitted_heard {w : Surroundings} {listener : Nat → Int → Except String Unit}
    (h : w.listener = some listener) (value : Int) (t : Trace) :
    (emitted w value t).heard = t.heard ++ [(t.progress.raised value).value] := by
  rw [emitted_of_heard h]
  exact heard_progressed _ _

theorem emitted_unheard {w : Surroundings} (h : w.listener = none) (value : Int) (t : Trace) :
    (emitted w value t).heard = t.heard := by
  rw [emitted_of_unheard h]
  rfl

/-- What was heard never fell, and lies between nothing and the value that progress stands at,
which is a hundred at most. -/
structure Trace.Steady (t : Trace) : Prop where
  nonneg : 0 ≤ t.progress.value
  le_hundred : t.progress.value ≤ 100
  rising : t.heard.Pairwise (· ≤ ·)
  bounded : ∀ v ∈ t.heard, 0 ≤ v ∧ v ≤ t.progress.value

section

variable {w : Surroundings} {t t' : Trace}

theorem Trace.Steady.start : Trace.Steady {} where
  nonneg := Int.le_refl 0
  le_hundred := by decide
  rising := .nil
  bounded := fun _ h => absurd h List.not_mem_nil

theorem Trace.Steady.of_eq (h : t.Steady) (hp : t'.progress = t.progress)
    (hh : t'.heard = t.heard) : t'.Steady := by
  obtain ⟨hn, hle, hr, hb⟩ := h
  rw [← hp] at hn hle hb
  rw [← hh] at hr hb
  exact ⟨hn, hle, hr, hb⟩

theorem Trace.Steady.report (h : t.Steady) (value : Int) : (emitted w value t).Steady := by
  have hup := t.progress.le_raised value
  have hprogress := emitted_progress w value t
  have hlow : 0 ≤ (t.progress.raised value).value := Int.le_trans h.nonneg hup
  have hearlier : ∀ v ∈ t.heard, 0 ≤ v ∧ v ≤ (t.progress.raised value).value := fun v hv =>
    ⟨(h.bounded v hv).1, Int.le_trans (h.bounded v hv).2 hup⟩
  cases hl : w.listener with
  | none =>
    have hheard := emitted_unheard hl value t
    refine ⟨by rwa [hprogress], ?_, by rw [hheard]; exact h.rising, ?_⟩
    · rw [hprogress]
      exact t.progress.raised_le value h.le_hundred
    · rwa [hheard, hprogress]
  | some listener =>
    have hheard := emitted_heard hl value t
    refine ⟨by rwa [hprogress], ?_, ?_, ?_⟩
    · rw [hprogress]
      exact t.progress.raised_le value h.le_hundred
    · rw [hheard, List.pairwise_append]
      refine ⟨h.rising, List.pairwise_singleton _ _, fun v hv last hlast => ?_⟩
      rw [List.mem_singleton.1 hlast]
      exact (hearlier v hv).2
    · rw [hheard, hprogress]
      intro v hv
      rcases List.mem_append.1 hv with hv | hv
      · exact hearlier v hv
      · rw [List.mem_singleton.1 hv]
        exact ⟨hlow, Int.le_refl _⟩

/-- A report of a hundred is heard as such, whatever was reported before. -/
theorem Trace.Steady.report_hundred (h : t.Steady) : (emitted w 100 t).progress.value = 100 := by
  have hle := h.le_hundred
  rw [emitted_progress, Progress.raised]
  show max t.progress.value (min 100 100) = 100
  omega

theorem steady_calm (w : Surroundings) : Calm w Trace.Steady where
  emit := fun value _ h => h.report value
  pause := fun _ h => h.of_eq rfl rfl

theorem steady_course {σ : Type} (setup : Setup σ) (ask : Ask) :
    Course setup ask (fun _ => Trace.Steady) Trace.Steady (fun _ => Trace.Steady) where
  head := readAt_leads (fun _ _ => Trace.Steady.start.of_eq rfl rfl)
    fun _ _ => Trace.Steady.start.of_eq rfl rfl
  poll := fun _ _ h => checkWanted_leads h (h.of_eq rfl rfl) (h.of_eq rfl rfl)
  read := fun _ _ _ _ h _ => readAt_leads
    (fun _ _ => ⟨h.of_eq rfl rfl, fun _ => h.of_eq rfl rfl⟩) fun _ _ => h.of_eq rfl rfl
  gained := fun _ _ _ _ h => h.of_eq rfl rfl
  calm := fun _ => steady_calm _
  past := fun _ _ h => h
  calmAfter := steady_calm _
  analyzed := fun _ h => h.of_eq rfl rfl
  stop := fun _ _ _ h => h

end

/-! ## Calls of a tracker -/

inductive Call
  | emit (value : Int)
  | span (start stop done total : Int)

def Call.value : Call → Int
  | emit value => value
  | span start stop done total => spanValue start stop done total

/-- The trace after some calls, in order. -/
def called (w : Surroundings) (calls : List Call) : Trace :=
  calls.foldl (fun t call => emitted w call.value t) {}

theorem called_append (w : Surroundings) (calls : List Call) (call : Call) :
    called w (calls ++ [call]) = emitted w call.value (called w calls) := by
  rw [called, List.foldl_append]
  rfl

theorem called_steady (w : Surroundings) (calls : List Call) : (called w calls).Steady := by
  have hfrom : ∀ t : Trace, t.Steady →
      (calls.foldl (fun t call => emitted w call.value t) t).Steady := by
    induction calls with
    | nil => exact fun _ h => h
    | cons call calls ih => exact fun t h => ih _ (h.report _)
  exact hfrom {} .start

theorem spanValue_bounds {start stop done total : Int} (hs : start ≤ stop) (h0 : 0 ≤ done)
    (hd : done ≤ total) (ht : 0 < total) :
    start ≤ spanValue start stop done total ∧ spanValue start stop done total ≤ stop := by
  have hmax : max total 1 = total := by omega
  have hwidth : 0 ≤ stop - start := by omega
  have hlow : 0 ≤ (stop - start) * done / total :=
    Int.ediv_nonneg (Int.mul_nonneg hwidth h0) (Int.le_of_lt ht)
  have hhigh : (stop - start) * done / total ≤ stop - start :=
    Int.ediv_le_of_le_mul ht (Int.mul_le_mul_of_nonneg_left hd hwidth)
  rw [spanValue, hmax]
  omega

/-- The greatest value so far stays in a stretch of values that it has not passed. -/
theorem raised_bounds {p : Progress} {start stop value : Int} (hstop : stop ≤ 100)
    (hp : p.value ≤ stop) (hv : start ≤ value ∧ value ≤ stop) :
    start ≤ (p.raised value).value ∧ (p.raised value).value ≤ stop := by
  simp only [Progress.raised]
  omega

/-! ## Whole requests -/

/-- The same request with another listener. -/
def Ask.heardBy (ask : Ask) (listener : Nat → Int → Except String Unit) : Ask :=
  ask.amid { ask.around with listener := some listener }

/-- What a listener hears never falls and stays between nothing and a hundred. -/
structure Rises (heard : List Int) : Prop where
  rising : heard.Pairwise (· ≤ ·)
  bounded : ∀ v ∈ heard, 0 ≤ v ∧ v ≤ 100

theorem Trace.Steady.rises {t : Trace} (h : t.Steady) : Rises t.heard where
  rising := h.rising
  bounded := fun v hv => ⟨(h.bounded v hv).1, Int.le_trans (h.bounded v hv).2 h.le_hundred⟩

theorem analyze_heardBy {σ : Type} (setup : Setup σ) (ask : Ask) (store : σ)
    (listener listener' : Nat → Int → Except String Unit) :
    (analyze setup (ask.heardBy listener) store).1.report =
      (analyze setup (ask.heardBy listener') store).1.report ∧
    (analyze setup (ask.heardBy listener) store).2 =
      (analyze setup (ask.heardBy listener') store).2 := by
  have hresembles : (ask.heardBy listener).around.Resembles (ask.heardBy listener').around :=
    ⟨rfl, .inl rfl⟩
  have halike : CutShort _ _ (prepare setup (ask.heardBy listener) store).1.trace ∨ _ :=
    analyze_alike hresembles store
  rcases halike with ⟨hne, -⟩ | h
  · exact absurd rfl hne
  · exact h

/-- Progress rises to a hundred in every request, whatever its listener does, and the report is
that of a listener who never fails. The same tracker keeps to this under calls of any kind in any
order: each of them reports the value that the tracker then stands at, which for a span is within
its stretch unless the tracker stands above it already. -/
theorem progress_rises {σ : Type} (setup : Setup σ) (ask : Ask) (store : σ)
    (listener : Nat → Int → Except String Unit) :
    (let outcome := (analyze setup (ask.heardBy listener) store).1
     Rises outcome.trace.heard ∧ outcome.trace.heard.getLast? = some 100 ∧
     outcome.report = (analyze setup (ask.heardBy fun _ _ => .ok ()) store).1.report) ∧
    ∀ calls, let w := (ask.heardBy listener).around
      Rises (called w calls).heard ∧
      (∀ call, let next := called w (calls ++ [call])
        next.heard = (called w calls).heard ++ [next.progress.value]) ∧
      ∀ start stop done total, 0 ≤ start → start ≤ stop → stop ≤ 100 → 0 ≤ done → done ≤ total →
        0 < total → (called w calls).progress.value ≤ stop →
        let next := called w (calls ++ [.span start stop done total])
        start ≤ next.progress.value ∧ next.progress.value ≤ stop := by
  have hlistener : (ask.heardBy listener).around.listener = some listener := rfl
  refine ⟨⟨?_, ?_, (analyze_heardBy setup ask store listener _).1⟩, fun calls => ⟨?_, ?_, ?_⟩⟩
  · exact (analyze_keeps (steady_course setup _) store).rises
  · have hsteady := prepare_keeps (steady_course setup (ask.heardBy listener)) store
    have hvalue := hsteady.report_hundred (w := (ask.heardBy listener).around)
    rw [emitted_progress] at hvalue
    rw [analyze_eq, settle_trace, emitted_heard hlistener, hvalue, List.getLast?_concat]
  · exact (called_steady _ calls).rises
  · intro call next
    have hnext : next = emitted _ call.value (called _ calls) := called_append _ calls call
    rw [hnext, emitted_heard hlistener, emitted_progress]
  · intro start stop done total h0 hs hstop hd hdt ht hp next
    have hnext : next = emitted _ (spanValue start stop done total) (called _ calls) :=
      called_append _ calls _
    rw [hnext, emitted_progress]
    exact raised_bounds hstop hp (spanValue_bounds hs hd hdt ht)

example : (called { source := .ofBytes .empty, listener := some fun _ _ => .error "deaf" }
    [.emit 70, .span 40 60 1 2, .emit 1000, .emit (-5)]).heard = [70, 70, 100, 100] := by decide

end PETriage.Request
