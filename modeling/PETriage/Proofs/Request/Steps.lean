import PETriage.Request.Analyze

/-!
# What becomes of a step

The steps of a request are run on a trace. `Ensures` says what holds of a value that a step
returns, `Returns` that it does return one, and `Gives` what a step comes to whatever the trace
before it; each goes through a sequence of steps. Reports of progress and pauses never stop a
request.
-/
namespace PETriage.Request

namespace Step

variable {α β ε : Type}

theorem run_bind (step : Step α) (next : α → Step β) (t : Trace) :
    (step >>= next).run t = match step.run t with
      | (.ok a, t) => (next a).run t
      | (.error stop, t) => (.error stop, t) := by
  show ExceptT.bindCont next (step.run t).1 (step.run t).2 = _
  rcases step.run t with ⟨r | r, t'⟩
  · rfl
  · rfl

theorem run_get (t : Trace) : (get : Step Trace).run t = (.ok t, t) := rfl
theorem run_set (t t' : Trace) : (set t' : Step PUnit).run t = (.ok ⟨⟩, t') := rfl
theorem run_modify (f : Trace → Trace) (t : Trace) :
    (modify f : Step PUnit).run t = (.ok ⟨⟩, f t) := rfl
theorem run_note (e : Event) (t : Trace) : (note e).run t = (.ok (), t.add e) := rfl

def Ensures (step : Step α) (post : α → Prop) : Prop := ∀ t a, (step.run t).1 = .ok a → post a

/-- The step returns a value, and it is so. -/
def Returns (step : Step α) (post : α → Prop) : Prop := ∀ t, ∃ a, (step.run t).1 = .ok a ∧ post a

/-- The step comes to the same, whatever the trace before it. -/
def Gives (step : Step α) (r : Except Stop α) : Prop := ∀ t, (step.run t).1 = r

section Ensures

variable {post post' : α → Prop} {final : β → Prop}

theorem Ensures.trivial (step : Step α) : step.Ensures fun _ => True := fun _ _ _ => ⟨⟩

theorem Ensures.pure {a : α} (h : post a) : (Pure.pure a : Step α).Ensures post := by
  intro t b hb
  cases hb
  exact h

theorem Ensures.bind {step : Step α} {next : α → Step β} (h : step.Ensures post)
    (hn : ∀ a, post a → (next a).Ensures final) : (step >>= next).Ensures final := by
  intro t b hb
  rw [run_bind] at hb
  have hs := h t
  generalize step.run t = s at hb hs
  rcases s with ⟨stop | a, t'⟩
  · cases hb
  · exact hn a (hs a rfl) t' b hb

theorem Ensures.after {step : Step α} {next : α → Step β} (hn : ∀ a, (next a).Ensures final) :
    (step >>= next).Ensures final :=
  (Ensures.trivial step).bind fun a _ => hn a

theorem Ensures.mono {step : Step α} (h : step.Ensures post) (hp : ∀ a, post a → post' a) :
    step.Ensures post' :=
  fun t a ha => hp a (h t a ha)

theorem Ensures.ofExcept {cause : ε → Stop} {r : Except ε α} (h : ∀ a, r = .ok a → post a) :
    (Step.ofExcept cause r).Ensures post := by
  cases r with
  | ok a => exact Ensures.pure (h a rfl)
  | error e =>
    intro t a ha
    cases ha

end Ensures

section Returns

variable {post : α → Prop} {final : β → Prop}

theorem Returns.pure {a : α} (h : post a) : (Pure.pure a : Step α).Returns post :=
  fun _ => ⟨a, rfl, h⟩

theorem Returns.bind {step : Step α} {next : α → Step β} (h : step.Returns post)
    (hn : ∀ a, post a → (next a).Returns final) : (step >>= next).Returns final := by
  intro t
  rw [run_bind]
  have hs := h t
  generalize step.run t = s at hs ⊢
  obtain ⟨a, ha, hp⟩ := hs
  rcases s with ⟨stop | b, t'⟩
  · cases ha
  · cases ha
    exact hn a hp t'

theorem Returns.attempt {step : Step α} (h : step.Returns post) :
    step.attempt.Returns fun r => ∃ a, r = .ok a ∧ post a :=
  fun t => ⟨_, rfl, h t⟩

theorem Returns.ensures {step : Step α} (h : step.Returns post) : step.Ensures post := by
  intro t a ha
  obtain ⟨b, hb, hp⟩ := h t
  cases hb.symm.trans ha
  exact hp

theorem Gives.returns {step : Step α} {a : α} (h : step.Gives (.ok a)) : step.Returns (· = a) :=
  fun t => ⟨a, h t, rfl⟩

theorem Returns.gives {step : Step α} {a : α} (h : step.Returns (· = a)) : step.Gives (.ok a) := by
  intro t
  obtain ⟨_, ht, rfl⟩ := h t
  exact ht

end Returns

section Gives

theorem Gives.pure (a : α) : (Pure.pure a : Step α).Gives (.ok a) := fun _ => rfl

theorem Gives.bind {step : Step α} {next : α → Step β} {a : α} {r : Except Stop β}
    (h : step.Gives (.ok a)) (hn : (next a).Gives r) : (step >>= next).Gives r := by
  intro t
  rw [run_bind]
  have hs := h t
  generalize step.run t = s at hs ⊢
  rcases s with ⟨stop | b, t'⟩
  · cases hs
  · cases hs
    exact hn t'

theorem Gives.bind_error {step : Step α} {next : α → Step β} {stop : Stop}
    (h : step.Gives (.error stop)) : (step >>= next).Gives (.error stop) := by
  intro t
  rw [run_bind]
  have hs := h t
  generalize step.run t = s at hs ⊢
  rcases s with ⟨stop | b, t'⟩
  · cases hs
    rfl
  · cases hs

theorem Gives.map {step : Step α} {next : α → Step β} {r : Except Stop α} {f : α → β}
    (h : step.Gives r) (hn : ∀ a, (next a).Gives (.ok (f a))) :
    (step >>= next).Gives (r.map f) := by
  cases r with
  | error stop => exact h.bind_error
  | ok a => exact h.bind (hn a)

theorem Gives.before {step : Step α} {next : α → Step α} {r : Except Stop α}
    (h : step.Gives r) (hn : ∀ a, (next a).Gives (.ok a)) : (step >>= next).Gives r := by
  cases r with
  | error stop => exact h.bind_error
  | ok a => exact h.bind (hn a)

theorem Gives.ofExcept (cause : ε → Stop) (r : Except ε α) :
    (Step.ofExcept cause r).Gives (r.mapError cause) := by
  cases r with
  | ok a => exact fun _ => rfl
  | error e => exact fun _ => rfl

end Gives
end Step

theorem note_gives (e : Event) : (Step.note e).Gives (.ok ()) := fun _ => rfl

theorem pause_gives : pause.Gives (.ok ()) := note_gives .paused

theorem pauses_gives (n : Nat) : (pauses n).Gives (.ok ()) := by
  induction n with
  | zero => exact Step.Gives.pure ()
  | succ n ih => exact pause_gives.bind ih

theorem emit_gives (w : Surroundings) (value : Int) : (emit w value).Gives (.ok ()) := by
  intro t
  simp only [emit, Step.run_bind, Step.run_get, Step.run_set]
  cases w.listener with
  | none => rfl
  | some listener =>
    simp only [Step.run_bind, Step.run_note, Step.run_modify]
    -- the listener's answer is looked at, but both answers come to the same
    split <;> rfl

theorem readAt_run (w : Surroundings) (offset length : Int) (t : Trace) :
    (readAt w offset length).run t = match w.source.read t.reads offset length with
      | .ok b => (.ok b, { t with reads := t.reads + 1 }.add (.read offset length b.size))
      | .error fault =>
        (.error (.unread fault), { t with reads := t.reads + 1 }.add (.read offset length 0)) := by
  simp only [readAt, Step.run_bind, Step.run_get, Step.run_set]
  cases w.source.read t.reads offset length with
  | ok b => rfl
  | error fault => rfl

/-! ## Classification -/

def Ask.IsImage (ask : Ask) : Prop :=
  ∃ head, ask.around.source.read 0 0 Image.classifyLength = .ok head ∧
    Image.startsAsImage head = true

theorem Ask.IsImage.two_le {ask : Ask} {head : ByteArray} (h : ask.IsImage)
    (hr : ask.around.source.read 0 0 Image.classifyLength = .ok head) : 2 ≤ head.size := by
  obtain ⟨head', hread, himage⟩ := h
  cases hread.symm.trans hr
  simp only [Image.startsAsImage, Bool.and_eq_true, decide_eq_true_eq] at himage
  exact himage.1.1

def frontOf (config : Config) (size : Nat) : Front :=
  match config.isLarge size with
  | .error reason => .unsized reason
  | .ok large => .image large

/-- The trace of a request that has read the first bytes. -/
def headTrace (w : Surroundings) (head : ByteArray) : Trace :=
  ((emit w 10).run
    ({ ({} : Trace) with reads := 1 }.add (.read 0 Image.classifyLength head.size))).2

theorem classify_run {σ : Type} (setup : Setup σ) (w : Surroundings) :
    ((classify setup w).run {}).1 = match w.source.read 0 0 Image.classifyLength with
      | .error fault => .error (.unread fault)
      | .ok head =>
        if Image.startsAsImage head then .ok (frontOf setup.config w.source.size)
        else ((hashSource setup w).run (headTrace w head)).1.map .hashed := by
  simp only [classify, Step.run_bind, readAt_run]
  cases w.source.read 0 0 Image.classifyLength with
  | error fault => rfl
  | ok head =>
    have he : (emit w 10).run ({ ({} : Trace) with reads := 0 + 1 }.add
        (.read 0 Image.classifyLength head.size)) = (.ok (), headTrace w head) :=
      Prod.ext (emit_gives w 10 _) rfl
    simp only [he, frontOf]
    split
    · cases setup.config.isLarge w.source.size with
      | error reason => rfl
      | ok large => exact (emit_gives w 20).bind (Step.Gives.pure (Front.image large)) _
    · simp only [Step.run_bind]
      generalize (hashSource setup w).run (headTrace w head) = s
      rcases s with ⟨stop | hashes, t⟩
      · rfl
      · rfl

/-- The exits that a request has up to the point where something is stored. -/
theorem prepare_report {σ : Type} (setup : Setup σ) (ask : Ask) (store : σ) :
    (prepare setup ask store).1.report =
      match ask.around.source.read 0 0 Image.classifyLength with
      | .error fault => .stopped ask.size false false (Stop.unread fault).message
      | .ok head =>
        if Image.startsAsImage head then
          match setup.config.isLarge ask.size with
          | .error reason => .stopped ask.size true false (Stop.broken reason).message
          | .ok large =>
            match (lookup setup ask store).1 with
            | some found =>
              { fileSize := ask.size, isImage := true, isLarge := large, strategy := .cached,
                analysis := some found }
            | none => (prepareImage setup ask large ((classify setup ask.around).run {}).2).report
        else
          match ((hashSource setup ask.around).run (headTrace ask.around head)).1 with
          | .error stop => .stopped ask.size false false stop.message
          | .ok hashes => { fileSize := ask.size, hashes := some hashes } := by
  have hc := classify_run setup ask.around
  unfold prepare
  generalize (classify setup ask.around).run {} = s at hc ⊢
  rcases s with ⟨r, t⟩
  simp only at hc
  rw [hc]
  cases ask.around.source.read 0 0 Image.classifyLength with
  | error fault => rfl
  | ok head =>
    cases hi : Image.startsAsImage head with
    | false =>
      simp only [hi, Bool.false_eq_true, ↓reduceIte]
      cases ((hashSource setup ask.around).run (headTrace ask.around head)).1 with
      | error stop => rfl
      | ok hashes => rfl
    | true =>
      simp only [hi, ↓reduceIte, frontOf, Ask.size]
      cases setup.config.isLarge ask.around.source.size with
      | error reason => rfl
      | ok large =>
        simp only
        generalize lookup setup ask store = found
        rcases found with ⟨none | found, store'⟩
        · rfl
        · rfl

end PETriage.Request
