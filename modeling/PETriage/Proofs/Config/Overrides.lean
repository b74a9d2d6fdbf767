import PETriage.Proofs.Config.Environment
import PETriage.Proofs.Except
import PETriage.Proofs.Field.Lookup

/-!
# Settings replaced after the environment was read

One replaced setting changes the field of its name and no other, and the whole is checked again.
So after any number of replacements every condition still holds, and a field is what it was given
last.
-/
namespace PETriage

theorem Keyed.get?_filter (o : Keyed String) (key name : String) :
    Keyed.get? (o.filter (·.1 != name)) key = if key = name then none else o.get? key := by
  induction o with
  | nil => simp [get?]
  | cons f rest ih =>
    obtain ⟨k, w⟩ := f
    by_cases hk : k = name
    · rw [List.filter_cons_of_neg (by simp [hk]), ih, get?]
      split
      · rfl
      · rw [if_neg (hk ▸ Ne.symm ‹_›)]
    · rw [List.filter_cons_of_pos (by simp [hk]), get?, get?, ih]
      split
      · rw [if_neg (‹k = key› ▸ hk)]
      · rfl

namespace Config

variable {c d : Config} {name : String} {v w : Value} {usual : Bool}

/-! ## The conditions of a checked configuration -/

/-- No comparison of the check tells of a broken condition. With every setting of its own kind
these are the conditions on the numbers, see `satisfied_iff_valid`. -/
structure Satisfied (c : Config) : Prop where
  sample : c.givenSample.holds .atMost (.int 0) = .ok false
  readChunk : c.givenReadChunk.holds .atMost (.int 0) = .ok false
  headerChunk : c.givenHeaderChunk.holds .atMost (.int 0) = .ok false
  threshold : c.givenSectionThreshold.holds .less c.givenSample = .ok false
  cap : c.givenCap.holds .less (.int 1) = .ok false
  sections : c.givenSections.holds .less (.int 1) = .ok false

theorem anyHolds_eq_ok_false_iff {questions : List (Except String Bool)} :
    anyHolds questions = .ok false ↔ ∀ q ∈ questions, q = .ok false := by
  rw [anyHolds, mapError_eq_ok_iff]
  induction questions with
  | nil => simp [List.anyM, pure, Except.pure]
  | cons q rest ih =>
    rw [List.forall_mem_cons, ← ih, List.anyM]
    cases q with
    | error e => simp [bind, Except.bind]
    | ok b => cases b <;> simp [bind, Except.bind, pure, Except.pure]

theorem throwIfAny_eq_ok_iff {questions : List (Except String Bool)} {e : ConfigError}
    {rest : Except ConfigError Config} :
    (do if ← anyHolds questions then throw e
        rest) = .ok d ↔ (∀ q ∈ questions, q = .ok false) ∧ rest = .ok d := by
  rw [← anyHolds_eq_ok_false_iff]
  cases anyHolds questions with
  | error e => simp [bind, Except.bind]
  | ok b => cases b <;> simp [bind, Except.bind, throw, throwThe, MonadExceptOf.throw]

theorem check_eq_ok_iff_satisfied : c.check = .ok d ↔ c = d ∧ c.Satisfied := by
  rw [check, throwIfAny_eq_ok_iff, throwIfAny_eq_ok_iff, throwIfAny_eq_ok_iff]
  simp only [List.forall_mem_cons, List.not_mem_nil, false_implies, implies_true, and_true, pure,
    Except.pure, Except.ok.injEq]
  constructor
  · rintro ⟨⟨h1, h2, h3⟩, h4, ⟨h5, h6⟩, rfl⟩
    exact ⟨rfl, h1, h2, h3, h4, h5, h6⟩
  · rintro ⟨rfl, h1, h2, h3, h4, h5, h6⟩
    exact ⟨⟨h1, h2, h3⟩, h4, ⟨h5, h6⟩, rfl⟩

theorem satisfied_iff_valid (hl : c.loose = []) : c.Satisfied ↔ c.Valid := by
  have hs : c.check = .ok c ↔ c = c ∧ c.Satisfied := check_eq_ok_iff_satisfied
  have hv : c.check = .ok c ↔ c = c ∧ c.Valid := check_eq_ok_iff hl
  simpa using hs.symm.trans hv

/-! ## One setting replaced -/

/-- The value of a field as its own kind has it. -/
def own (c : Config) : String → Value
  | "large_file_threshold" => .int c.largeFileThreshold
  | "header_chunk_size" => .int c.headerChunkSize
  | "large_section_threshold" => .int c.largeSectionThreshold
  | "sample_size" => .int c.sampleSize
  | "read_chunk_size" => .int c.readChunkSize
  | "degraded_section_cap" => .int c.degradedSectionCap
  | "max_sections" => .int c.maxSections
  | "external_timeout" => c.externalTimeout.toValue
  | "delegate_small_files" => .bool c.delegateSmallFiles
  | "external_analyzer" => .orNull .str c.externalAnalyzer
  | _ => .null

/-- The value of a field as it was given. A time limit holds any value itself. -/
def held (c : Config) (f : String) : Value :=
  if f = "external_timeout" then c.own f else c.given f (c.own f)

theorem toValue_field? (c : Config) : ∀ f ∈ fieldNames, c.toValue.field? f = some (c.held f) := by
  simp only [fieldNames, sizeNames, List.cons_append, List.nil_append, List.forall_mem_cons]
  exact ⟨rfl, rfl, rfl, rfl, rfl, rfl, rfl, rfl, rfl, rfl, List.forall_mem_nil _⟩

theorem own_keep (f : String) : (c.keep name v usual).own f = c.own f := by
  unfold own
  rfl

theorem given_keep (f : String) (w : Value) : (c.keep name v usual).given f w =
    if f = name then (if usual then w else v) else c.given f w := by
  rw [given, given, keep]
  cases usual with
  | true =>
    simp only [↓reduceIte, Keyed.get?_filter]
    split <;> rfl
  | false =>
    simp only [Bool.false_eq_true, ↓reduceIte, Keyed.get?_put]
    split <;> rfl

/-- The two are alike, up to the field of this name. -/
structure Beside (name : String) (c d : Config) : Prop where
  loose : d.loose = c.loose
  own : ∀ f, f ≠ name → d.own f = c.own f

theorem Beside.held_keep (h : Beside name c d) (hn : name ≠ "external_timeout")
    (hv : usual = true → d.own name = v) (f : String) :
    (d.keep name v usual).held f = if f = name then v else c.held f := by
  rw [held, held, own_keep, given_keep]
  by_cases hf : f = name
  · subst hf
    rw [if_neg hn, if_pos rfl, if_pos rfl]
    split
    · exact hv ‹_›
    · rfl
  · rw [if_neg hf, if_neg hf, h.own f hf, given, h.loose]
    rfl

theorem beside_timeout (c : Config) (t : Seconds) :
    Beside "external_timeout" c { c with externalTimeout := t } where
  loose := rfl
  own f hf := by
    unfold Config.own
    split <;> first | rfl | exact absurd rfl hf

theorem beside_delegate (c : Config) (b : Bool) :
    Beside "delegate_small_files" c { c with delegateSmallFiles := b } where
  loose := rfl
  own f hf := by
    unfold Config.own
    split <;> first | rfl | exact absurd rfl hf

theorem beside_analyzer (c : Config) (a : Option Text) :
    Beside "external_analyzer" c { c with externalAnalyzer := a } where
  loose := rfl
  own f hf := by
    unfold Config.own
    split <;> first | rfl | exact absurd rfl hf

theorem withNumber_eq_some {n : Int} (h : c.withNumber n name = some d) :
    name ∈ sizeNames ∧ d.own name = .int n ∧ Beside name c d := by
  unfold withNumber at h
  split at h
  case h_8 => cases h
  all_goals
    cases h
    refine ⟨by decide, rfl, rfl, fun f hf => ?_⟩
    unfold own
    split <;> first | rfl | exact absurd rfl hf

theorem ceiling_ofInteger (n : Int) : (Number.Exact.ofInteger n).ceiling = n := by
  show -(-n / 1) = n
  rw [Int.ediv_one, Int.neg_neg]

theorem int_ceiling_of_isInt (h : isInt v = true) :
    Value.int ((v.number?.map (·.ceiling)).getD 0) = v := by
  cases v with
  | int n => rw [Value.number?, Option.map_some, Option.getD_some, ceiling_ofInteger]
  | _ => cases h

theorem toValue_ofValue (v : Value) : (Seconds.ofValue v).toValue = v := by
  cases v <;> rfl

theorem bool_counts_of_kind (h : (v.kind == "bool") = true) : Value.bool v.counts = v := by
  cases v with
  | bool b => rfl
  | _ => cases h

theorem orNull_analyzerName (h : (v == Value.null || v.text?.isSome) = true) :
    Value.orNull .str (analyzerName v) = v := by
  cases v with
  | null => rfl
  | str s => rfl
  | _ => cases h

/-- A value of the kind that its setting has. A time limit may be anything. -/
def ofKind (name : String) (v : Value) : Bool :=
  match name with
  | "external_timeout" => true
  | "delegate_small_files" => v.kind == "bool"
  | "external_analyzer" => v == Value.null || v.text?.isSome
  | _ => isInt v

/-- A time limit is set as it is. Any other setting gets a value of its kind, and the one that was
given is kept unless it is of that kind. -/
theorem assign_eq_ok (h : c.assign (name, v) = .ok d) :
    name = "external_timeout" ∧ d = { c with externalTimeout := .ofValue v } ∨
    name ≠ "external_timeout" ∧ name ∈ fieldNames ∧ ∃ e, Beside name c e ∧
      (ofKind name v = true → e.own name = v) ∧ d = e.keep name v (ofKind name v) := by
  unfold assign at h
  split at h
  · rename_i heq
    cases heq
    cases h
    exact .inl ⟨rfl, rfl⟩
  · rename_i heq
    cases heq
    cases h
    exact .inr ⟨by decide, by decide, _, beside_delegate c v.counts, bool_counts_of_kind, rfl⟩
  · rename_i heq
    cases heq
    cases h
    exact .inr ⟨by decide, by decide, _, beside_analyzer c (analyzerName v), orNull_analyzerName,
      rfl⟩
  · rename_i ht hd ha heq
    cases heq
    have hkind : ofKind name v = isInt v := by
      unfold ofKind
      split
      · exact (ht rfl).elim
      · exact (hd rfl).elim
      · exact (ha rfl).elim
      · rfl
    split at h
    · rename_i e hw
      cases h
      obtain ⟨hs, hself, hb⟩ := withNumber_eq_some hw
      refine .inr ⟨fun he => ht he, List.mem_append_left _ hs, e, hb, fun hk => ?_, ?_⟩
      · rw [hself, int_ceiling_of_isInt (hkind.symm.trans hk)]
      · rw [hkind]
    · cases h

/-- A replaced setting changes the field of its name and no other. -/
theorem held_assign (h : c.assign (name, v) = .ok d) :
    name ∈ fieldNames ∧ ∀ f, d.held f = if f = name then v else c.held f := by
  rcases assign_eq_ok h with ⟨rfl, rfl⟩ | ⟨hn, hmem, e, hb, hv, rfl⟩
  · refine ⟨by decide, fun f => ?_⟩
    rw [held, held]
    by_cases hf : f = "external_timeout"
    · rw [if_pos hf, if_pos hf, hf]
      exact toValue_ofValue v
    · rw [if_neg hf, if_neg hf, if_neg hf, (beside_timeout c (.ofValue v)).own f hf]
      rfl
  · exact ⟨hmem, hb.held_keep hn hv⟩

theorem loose_assign (h : c.assign (name, v) = .ok d) (hl : c.loose = [])
    (hk : ofKind name v = true) : d.loose = [] := by
  rcases assign_eq_ok h with ⟨-, rfl⟩ | ⟨-, -, e, hb, -, rfl⟩
  · exact hl
  · rw [keep, hk, hb.loose, hl]
    rfl

/-! ## Many settings replaced -/

/-- The value that a field was given last. -/
def lastGiven? (settings : Keyed String) (f : String) : Option Value :=
  Keyed.get? settings.reverse f

theorem lastGiven?_append (first later : Keyed String) (f : String) :
    lastGiven? (first ++ later) f = (lastGiven? later f).or (lastGiven? first f) := by
  rw [lastGiven?, List.reverse_append, Keyed.get?_append]
  rfl

/-- What the settings make of a configuration: each is known, a field holds what it was given
last, and values of their own kind leave every setting of its own kind. -/
structure Replaced (settings : Keyed String) (c d : Config) : Prop where
  known : ∀ s ∈ settings, s.1 ∈ fieldNames
  held : ∀ f, d.held f = (lastGiven? settings f).getD (c.held f)
  loose : c.loose = [] → (∀ s ∈ settings, ofKind s.1 s.2 = true) → d.loose = []

theorem Replaced.none (c : Config) : Replaced [] c c where
  known := List.forall_mem_nil _
  held _ := rfl
  loose hl _ := hl

theorem Replaced.append {first later : Keyed String} {e : Config} (hf : Replaced first c d)
    (hg : Replaced later d e) : Replaced (first ++ later) c e where
  known := by
    intro s hs
    rcases List.mem_append.1 hs with hs | hs
    · exact hf.known s hs
    · exact hg.known s hs
  held f := by
    rw [hg.held, hf.held, lastGiven?_append]
    cases lastGiven? later f <;> rfl
  loose hl hk :=
    hg.loose (hf.loose hl fun s hs => hk s (List.mem_append_left _ hs))
      fun s hs => hk s (List.mem_append_right _ hs)

theorem replaced_assign {s : String × Value} (h : c.assign s = .ok d) : Replaced [s] c d where
  known := List.forall_mem_cons.2 ⟨(held_assign h).1, List.forall_mem_nil _⟩
  held f := by
    rw [(held_assign h).2, lastGiven?, List.reverse_singleton, Keyed.get?, Keyed.get?]
    by_cases hf : f = s.1
    · rw [if_pos hf, if_pos hf.symm, Option.getD_some]
    · rw [if_neg hf, if_neg (Ne.symm hf), Option.getD_none]
  loose hl hk := loose_assign h hl (hk s List.mem_cons_self)

theorem replaced_assignAll {settings : Keyed String} (h : c.assignAll settings = .ok d) :
    Replaced settings c d := by
  induction settings generalizing c with
  | nil =>
    cases h
    exact .none _
  | cons s rest ih =>
    rw [assignAll, List.foldlM_cons, bind_eq_ok_iff] at h
    obtain ⟨e, hs, hrest⟩ := h
    exact (replaced_assign hs).append (ih hrest)

theorem withSettings_eq_ok {settings : Keyed String} (h : c.withSettings settings = .ok d) :
    d.Satisfied ∧ Replaced settings c d := by
  rw [withSettings, bind_eq_ok_iff] at h
  obtain ⟨e, ha, hc⟩ := h
  obtain ⟨rfl, hs⟩ := check_eq_ok_iff_satisfied.1 hc
  exact ⟨hs, replaced_assignAll ha⟩

/-- After any number of replacements that pass the check, all of them count, and the conditions
hold as they did at first. -/
theorem satisfied_of_runs {runs : List (Keyed String)} (hc : c.Satisfied)
    (h : runs.foldlM withSettings c = .ok d) : d.Satisfied ∧ Replaced runs.flatten c d := by
  induction runs generalizing c with
  | nil =>
    -- only here do the conditions come from the start; every run checks them again
    cases h
    exact ⟨hc, .none _⟩
  | cons settings rest ih =>
    rw [List.foldlM_cons, bind_eq_ok_iff] at h
    obtain ⟨e, hs, hrest⟩ := h
    obtain ⟨he, hfirst⟩ := withSettings_eq_ok hs
    obtain ⟨hd, hlater⟩ := ih he hrest
    exact ⟨hd, hfirst.append hlater⟩

/-! ## From the environment on -/

/-- What replacements make of a configuration that was returned: the conditions hold, the fields
that were not replaced are as they were, and the others hold what they were given last. -/
structure Reached (c : Config) (runs : List (Keyed String)) (d : Config) : Prop where
  satisfied : d.Satisfied
  known : ∀ s ∈ runs.flatten, s.1 ∈ fieldNames
  field : ∀ f ∈ fieldNames, d.toValue.field? f = (lastGiven? runs.flatten f).or (c.toValue.field? f)
  valid : (∀ s ∈ runs.flatten, ofKind s.1 s.2 = true) → d.loose = [] ∧ d.Valid

theorem reached_of_runs {runs : List (Keyed String)} (hl : c.loose = []) (hv : c.Valid)
    (h : runs.foldlM withSettings c = .ok d) : Reached c runs d := by
  obtain ⟨hs, hr⟩ := satisfied_of_runs ((satisfied_iff_valid hl).2 hv) h
  refine ⟨hs, hr.known, fun f hf => ?_, fun hk => ?_⟩
  · rw [toValue_field? d f hf, toValue_field? c f hf, hr.held]
    cases lastGiven? runs.flatten f <;> rfl
  · have hd := hr.loose hl hk
    exact ⟨hd, (satisfied_iff_valid hd).1 hs⟩

/-- How an environment decides a configuration and all that is made of it. -/
structure Governs (env : String → Option String) : Prop where
  /-- What is returned is what was parsed, and it satisfies every condition. -/
  returned : ∀ c, ofEnvironment env = .ok c ↔ c = parsedFrom env ∧ c.Valid
  /-- It fails just when what was parsed breaks a condition. -/
  failed : (∃ e, ofEnvironment env = .error e) ↔ ¬(parsedFrom env).Valid
  /-- The error tells of a condition that is broken. -/
  reason : ∀ e, ofEnvironment env = .error e → Broken (parsedFrom env) e
  /-- A variable that is empty or does not read may as well be missing. -/
  idle : ∀ f ∈ fieldNames, parsed? env f = none →
    ofEnvironment (without env (variableOf f)) = ofEnvironment env
  /-- So may a variable of no field. -/
  foreign : ∀ x ∉ fieldNames.map variableOf, ofEnvironment (without env x) = ofEnvironment env
  /-- A field is what its variable gives, or the standard one. -/
  field : ∀ f ∈ fieldNames,
    (parsedFrom env).toValue.field? f = some ((parsed? env f).getD (standardOf f))
  /-- A text of a whole number gives a size that number. -/
  whole : ∀ f ∈ sizeNames, ∀ raw m, env (variableOf f) = some raw →
    Number.IntegerText raw.toList m → parsed? env f = some (.int m)
  /-- Decimal digits with a zero in front, or too many of them, give a size nothing. -/
  refused : ∀ f ∈ sizeNames, ∀ raw, env (variableOf f) = some raw →
    Number.ZeroFront raw.toList ∨ Number.TooLong raw.toList → parsed? env f = none
  /-- The same conditions hold after any replacements. -/
  reached : ∀ c, ofEnvironment env = .ok c → ∀ runs d, runs.foldlM withSettings c = .ok d →
    Reached c runs d

/-- Every environment governs the configuration read from it. Each whole number has a text behind
every mark, and a decimal one unless it has too many digits. -/
theorem environment_governs (env : String → Option String) : Governs env ∧ ∀ m : Int,
    (∀ mark base, Number.markBase? mark = some base → Number.IntegerText
      (Number.behindSign m ('0' :: mark :: Nat.toDigits base m.natAbs)) m) ∧
    ((Nat.toDigits 10 m.natAbs).length ≤ Number.decimalDigitLimit →
      Number.IntegerText (Number.behindSign m (Nat.toDigits 10 m.natAbs)) m) := by
  refine ⟨⟨fun c => ofEnvironment_eq_ok_iff, ofEnvironment_fails_iff, fun e => broken_of_check rfl,
    fun f => ofEnvironment_without_of_none, ?_, parsedFrom_field? env, ?_, ?_, ?_⟩,
    fun m => ⟨?_, ?_⟩⟩
  · intro x hx
    exact ofEnvironment_without fun f hf h => absurd (List.mem_map.2 ⟨f, hf, h⟩) hx
  · intro f hf raw m hr h
    exact parsed?_of_integerText hf hr h
  · intro f hf raw hr h
    refine parsed?_of_unread hf hr ?_
    rcases h with h | h
    · exact Number.readInteger?_of_zeroFront h
    · exact Number.readInteger?_of_tooLong h
  · intro c hc runs d h
    obtain ⟨rfl, hv⟩ := ofEnvironment_eq_ok_iff.1 hc
    exact reached_of_runs rfl hv h
  · intro mark base hm
    exact Number.integerText_behindSign (Number.literal_marked hm _)
  · intro hl
    exact Number.integerText_behindSign (Number.literal_toDigits _ hl)

/-- A sample size behind a mark, and a cap with a zero in front. -/
def marked (x : String) : Option String :=
  if x = "PEINSPECT_SAMPLE_SIZE" then some " +0x1_00\n"
  else if x = "PEINSPECT_MAX_SECTIONS" then some "010"
  else none

theorem environment_governs_marked :
    parsed? marked "sample_size" = some (.int 256) ∧ parsed? marked "max_sections" = none ∧
    ofEnvironment (without marked "PEINSPECT_MAX_SECTIONS") = ofEnvironment marked ∧
    ∃ d, [[("read_chunk_size", .int 512)], [("max_sections", .int 3)]].foldlM withSettings
        (parsedFrom marked) = .ok d ∧ d.Valid ∧
      d.toValue.field? "max_sections" = some (.int 3) ∧
      d.toValue.field? "sample_size" = (parsedFrom marked).toValue.field? "sample_size" := by
  have hg := (environment_governs marked).1
  have haround : Number.Around ['0', 'x', '1', '_', '0', '0']
      ([' '] ++ '+' :: ['0', 'x', '1', '_', '0', '0'] ++ ['\n']) false :=
    .plus (List.forall_mem_singleton.2 rfl) (List.forall_mem_singleton.2 rfl)
  have hhex : Number.Spaced 16 ['1', '_', '0', '0'] [1, 0, 0] :=
    .spaced rfl (.next rfl (.last rfl))
  have htext : Number.IntegerText " +0x1_00\n".toList 256 := .intro haround (.marked rfl hhex)
  have hdecimal : Number.Spaced 10 ['0', '1', '0'] [0, 1, 0] := .next rfl (.next rfl (.last rfl))
  have hfront : Number.ZeroFront "010".toList :=
    .intro (Number.around_bare _) hdecimal (by decide)
  have hcap : parsed? marked "max_sections" = none :=
    hg.refused "max_sections" (by decide) _ rfl (.inl hfront)
  have hvalid : (parsedFrom marked).Valid :=
    ⟨by decide, by decide, by decide, by decide, by decide, by decide⟩
  have hreached := hg.reached _ ((hg.returned _).2 ⟨rfl, hvalid⟩)
    [[("read_chunk_size", .int 512)], [("max_sections", .int 3)]]
    { parsedFrom marked with readChunkSize := 512, maxSections := 3 } rfl
  exact ⟨hg.whole "sample_size" (by decide) _ _ rfl htext, hcap,
    hg.idle "max_sections" (by decide) hcap, _, rfl, (hreached.valid (by decide)).2,
    hreached.field "max_sections" (by decide), hreached.field "sample_size" (by decide)⟩

/-- An environment with nothing but a sample size. -/
def onlySample (raw : String) (x : String) : Option String :=
  if x = "PEINSPECT_SAMPLE_SIZE" then some raw else none

theorem onlySample_of_none {raw : String} (h : parsed? (onlySample raw) "sample_size" = none) :
    ofEnvironment (onlySample raw) = .ok {} := by
  have hwithout : without (onlySample raw) (variableOf "sample_size") = fun _ => none := by
    funext x
    rw [without, onlySample]
    split
    · rfl
    · exact if_neg ‹_›
  rw [← ofEnvironment_without_of_none (by decide) h, hwithout]
  exact ofEnvironment_eq_ok_iff.2
    ⟨rfl, by decide, by decide, by decide, by decide, by decide, by decide⟩

/-- A negative sample size of 4301 digits does not read, so that the standard one is returned and
no error. -/
theorem long_sample_unread :
    Number.Spaced 10 ('1' :: List.replicate 4300 '0') (1 :: List.replicate 4300 0) ∧
    Number.ofDigits 10 (1 :: List.replicate 4300 0) = 10 ^ 4300 ∧
    ¬({ sampleSize := -((10 ^ 4300 : Nat) : Int) } : Config).Valid ∧
    ofEnvironment (onlySample (String.ofList ('-' :: '1' :: List.replicate 4300 '0'))) =
      .ok {} := by
  have hs := Number.spaced_power 4300
  refine ⟨hs, Number.ofDigits_power 10 4300, Broken.not_valid (.sizes (.inl ?_)),
    onlySample_of_none ?_⟩
  · exact Int.neg_nonpos_of_nonneg (Int.natCast_nonneg _)
  · have hlong : Number.decimalDigitLimit < (1 :: List.replicate 4300 0).length := by
      rw [List.length_cons, List.length_replicate]
      decide
    have htext := Number.TooLong.intro (Number.around_minus _) hs hlong
    refine parsed?_of_unread (by decide) rfl ?_
    rw [String.toList_ofList]
    exact Number.readInteger?_of_tooLong htext

end Config
end PETriage
