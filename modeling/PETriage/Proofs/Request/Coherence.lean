import PETriage.Proofs.Report.Essential
import PETriage.Proofs.Request.Served

/-!
# The cache in memory over many requests

Requests are served one after another, each with the entries that the one before it left. What
stands under a key is the essential part of the first analysis that was finished under it: once
it is there a lookup finds it, so no later request gets as far as storing under the key again.
-/
namespace PETriage.Request

open Report (Analysis)
open Cache.Memory (Entries)

/-! ## The first to finish -/

/-- The request made a full analysis under the key, and nothing is wrong with it. -/
def Served.Finishes (key : String) (e : Served) : Prop :=
  e.ask.usableKey = some key ∧ e.report.Finished

instance (key : String) (e : Served) : Decidable (e.Finishes key) :=
  inferInstanceAs (Decidable (_ ∧ _))

def firstFinished (key : String) (served : List Served) : Option Served :=
  served.find? fun e => e.Finishes key

theorem firstFinished_eq_some {key : String} {served : List Served} {f : Served}
    (h : firstFinished key served = some f) : f ∈ served ∧ f.Finishes key := by
  have hf := List.find?_some h
  exact ⟨List.mem_of_find?_eq_some h, of_decide_eq_true hf⟩

theorem firstFinished_isSome_iff {key : String} {served : List Served} :
    (firstFinished key served).isSome ↔ ∃ f ∈ served, f.Finishes key := by
  rw [firstFinished, List.find?_isSome]
  simp only [decide_eq_true_eq]

theorem firstFinished_append (key : String) (served : List Served) (e : Served) :
    firstFinished key (served ++ [e]) =
      (firstFinished key served).or (if e.Finishes key then some e else none) := by
  rw [firstFinished, List.find?_append, List.find?_singleton]
  simp only [decide_eq_true_eq]
  rfl

theorem stored_of_finishes {e : Served} {key : String} {a : Analysis} (h : e.Finishes key)
    (ha : e.report.analysis = some a) : e.stored = some (key, a) := by
  rw [Served.stored, ScanReport.finished?, if_pos h.2, ha, Option.bind_some, h.1, Option.map_some]

theorem stored_eq_none {e : Served} (h : ∀ key, ¬e.Finishes key) : e.stored = none := by
  rw [Served.stored, ScanReport.finished?]
  split
  · rename_i hf
    cases hk : e.ask.usableKey with
    | none => exact Option.bind_eq_none_iff.2 fun _ _ => rfl
    | some key => exact absurd ⟨hk, hf⟩ (h key)
  · rfl

/-! ## What the entries say about the requests so far -/

/-- The entries are what the first requests to finish have left, and these are fit to be read
again. -/
structure Remembers (config : Config) (served : List Served) (entries : Entries) : Prop where
  entry : ∀ key, entries.get? key =
    ((firstFinished key served).bind (·.report.analysis)).map Analysis.essential
  sized : ∀ e ∈ served, e.report.Finished → ∃ large, config.isLarge e.ask.size = .ok large
  analyzed : ∀ e ∈ served, e.report.Finished → ∃ a, e.report.analysis = some a ∧ a.Canonical

section Remembers

variable {config : Config} {served : List Served} {entries : Entries} {turn : Turn} {key : String}

theorem Remembers.nil (config : Config) : Remembers config [] [] where
  entry := fun _ => rfl
  sized := fun _ he => absurd he List.not_mem_nil
  analyzed := fun _ he => absurd he List.not_mem_nil

/-- A lookup gives what is kept of the first analysis finished under the key, if there is any. -/
theorem Remembers.found_cases (h : Remembers config served entries) {ask : Ask}
    (hk : ask.usableKey = some key) :
    (firstFinished key served = none ∧ found? ask entries = none) ∨
    ∃ f a, firstFinished key served = some f ∧ f.report.analysis = some a ∧
      found? ask entries = some a.kept := by
  have hentry := h.entry key
  rw [found?, hk, Option.bind_some, Cache.Memory.lookup]
  cases hf : firstFinished key served with
  | none =>
    rw [hf] at hentry
    rw [hentry]
    exact .inl ⟨rfl, rfl⟩
  | some f =>
    obtain ⟨hmem, -, hfinished⟩ := firstFinished_eq_some hf
    obtain ⟨a, ha, hc⟩ := h.analyzed f hmem hfinished
    rw [hf, Option.bind_some, ha, Option.map_some] at hentry
    rw [hentry]
    simp only [Report.ofValue_essential hc]
    exact .inr ⟨f, a, rfl, ha, rfl⟩

theorem Remembers.serve (h : Remembers config served entries) (turn : Turn) :
    Remembers config (served ++ [turn.serve config entries]) (turn.serve config entries).after where
  entry := by
    intro key
    have hafter := serve_after config turn entries
    have hending := serve_ending config turn entries
    have hask : (turn.serve config entries).ask = turn.ask := rfl
    generalize turn.serve config entries = e at hafter hending hask ⊢
    rw [firstFinished_append]
    by_cases hany : ∃ k, e.Finishes k
    · obtain ⟨k, hk, hf⟩ := hany
      obtain ⟨hmiss, -, a, ha, -⟩ := hending.of_finished hf
      -- an analysis was made, so the lookup found nothing: no request finished under the key yet
      have hnone : firstFinished k served = none := by
        rcases h.found_cases (hask ▸ hk) with ⟨hnone, -⟩ | ⟨f, b, -, -, hb⟩
        · exact hnone
        · cases hmiss.symm.trans hb
      rw [hafter, stored_of_finishes ⟨hk, hf⟩ ha, Option.elim_some, Keyed.get?_put]
      by_cases hkey : key = k
      · rw [if_pos hkey, hkey, hnone, if_pos ⟨hk, hf⟩, Option.none_or, Option.bind_some, ha,
          Option.map_some]
      · have hother : ¬e.Finishes key := fun h => hkey (Option.some.inj (h.1.symm.trans hk))
        rw [if_neg hkey, h.entry, if_neg hother, Option.or_none]
    · have hnone : ∀ k, ¬e.Finishes k := fun k hk => hany ⟨k, hk⟩
      rw [hafter, stored_eq_none hnone, Option.elim_none, h.entry, if_neg (hnone key),
        Option.or_none]
  sized := by
    intro e he hf
    rcases List.mem_append.1 he with he | he
    · exact h.sized e he hf
    · cases List.mem_singleton.1 he
      exact ((serve_ending config turn entries).of_finished hf).2.1
  analyzed := by
    intro e he hf
    rcases List.mem_append.1 he with he | he
    · exact h.analyzed e he hf
    · cases List.mem_singleton.1 he
      exact ((serve_ending config turn entries).of_finished hf).2.2

end Remembers

/-! ## A run of requests -/

/-- What a request is served from the cache agrees with what was reported before it, and it
leaves an entry of its own only with an analysis that it finished. -/
structure Coherent (earlier : List Served) (e : Served) : Prop where
  cached : e.report.strategy = .cached ↔
    e.ask.IsImage ∧ ∃ key, e.ask.usableKey = some key ∧ ∃ f ∈ earlier, f.Finishes key
  essential : e.report.strategy = .cached →
    ∃ key f a b, e.ask.usableKey = some key ∧ firstFinished key earlier = some f ∧
      e.report.analysis = some a ∧ f.report.analysis = some b ∧ a.essential = b.essential
  unchanged : ¬e.report.Finished → e.after = e.before

section Run

variable {config : Config} {earlier : List Served} {entries : Entries}

theorem Remembers.essential (h : Remembers config earlier entries) (turn : Turn)
    (hs : (turn.serve config entries).report.strategy = .cached) :
    ∃ key f a b, turn.ask.usableKey = some key ∧ firstFinished key earlier = some f ∧
      (turn.serve config entries).report.analysis = some a ∧
      f.report.analysis = some b ∧ a.essential = b.essential := by
  obtain ⟨-, a, hfound, ha⟩ := (serve_ending config turn entries).of_cached hs
  cases hk : turn.ask.usableKey with
  | none =>
    rw [found?, hk] at hfound
    cases hfound
  | some key =>
    rcases h.found_cases hk with ⟨-, hnone⟩ | ⟨f, b, hf, hb, hsome⟩
    · cases hnone.symm.trans hfound
    · cases hsome.symm.trans hfound
      exact ⟨key, f, b.kept, b, rfl, hf, ha, hb, Report.essential_kept b⟩

theorem Remembers.coherent (h : Remembers config earlier entries) (turn : Turn) :
    Coherent earlier (turn.serve config entries) where
  cached := by
    constructor
    · intro hs
      obtain ⟨key, f, a, b, hk, hf, -⟩ := h.essential turn hs
      obtain ⟨hmem, hfinishes⟩ := firstFinished_eq_some hf
      exact ⟨((serve_ending config turn entries).of_cached hs).1, key, hk, f, hmem, hfinishes⟩
    · rintro ⟨hi, key, hk, f, hmem, hfinishes⟩
      -- the threshold was of use for the earlier request, so it is of use for this one
      obtain ⟨large, hl⟩ := h.sized f hmem hfinishes.2
      obtain ⟨large', hl'⟩ := isLarge_ok_of_ok hl turn.ask.size
      rcases h.found_cases hk with ⟨hnone, -⟩ | ⟨g, b, -, -, hfound⟩
      · have hsome := firstFinished_isSome_iff.2 ⟨f, hmem, hfinishes⟩
        rw [hnone] at hsome
        cases hsome
      · exact (serve_ending config turn entries).cached hi hl' hfound
  essential := h.essential turn
  unchanged := by
    intro hn
    have hnone : ∀ key, ¬(turn.serve config entries).Finishes key := fun key hk => hn hk.2
    rw [serve_after, stored_eq_none hnone]
    rfl

theorem Remembers.run_coherent {turns : List Turn} {past later : List Served} {e : Served}
    (h : Remembers config past entries)
    (hrun : serveAll config turns entries = earlier ++ e :: later) :
    Coherent (past ++ earlier) e := by
  -- over the turns; what was served so far grows by one request in each step
  induction turns generalizing past earlier entries with
  | nil => cases earlier <;> cases hrun
  | cons turn rest ih =>
    cases earlier with
    | nil =>
      obtain ⟨rfl, -⟩ := List.cons.inj hrun
      rw [List.append_nil]
      exact h.coherent turn
    | cons first earlier =>
      obtain ⟨rfl, hrest⟩ := List.cons.inj hrun
      have hlast := ih (h.serve turn) hrest
      rwa [List.append_assoc] at hlast

end Run

/-- Whatever requests are served one after another from an empty cache in memory, each is
coherent with those before it. -/
theorem serveAll_coherent {config : Config} {turns : List Turn} {earlier later : List Served}
    {e : Served} (h : serveAll config turns [] = earlier ++ e :: later) : Coherent earlier e :=
  (Remembers.nil config).run_coherent h

/-- The same file is asked for twice under one key. -/
theorem serveAll_coherent_bare :
    let turn : Turn := { ask := bareAsk }
    let first := turn.serve {} []
    let second := turn.serve {} first.after
    serveAll {} [turn, turn] [] = [first] ++ second :: [] ∧ Coherent [first] second ∧
      second.report.strategy = .cached := by
  intro turn first second
  have hrun : serveAll {} [turn, turn] [] = [first] ++ second :: [] := rfl
  have hcoherent := serveAll_coherent hrun
  have hfirst : first.Finishes "k" := by decide +kernel
  have himage : bareAsk.IsImage := ⟨_, rfl, by decide +kernel⟩
  refine ⟨hrun, hcoherent, hcoherent.cached.2 ⟨himage, "k", by decide, first, ?_, hfirst⟩⟩
  exact List.mem_singleton_self first

end PETriage.Request
