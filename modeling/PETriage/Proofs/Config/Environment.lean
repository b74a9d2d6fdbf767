import PETriage.Config
import PETriage.Proofs.Number.Marked

/-!
# Settings read from the environment

Each field is read from the variable of its name, and only from that one. A variable that is
missing, empty or does not read leaves the standard value, and the whole is then checked once.
-/
namespace PETriage.Config

variable {α : Type} {env : String → Option String} {c d : Config} {field name x : String}
  {read? : List Char → Option α} {shown : α → Value} {standard : α} {e : ConfigError}

/-! ## Fields and their variables -/

def sizeNames : List String :=
  ["large_file_threshold", "header_chunk_size", "large_section_threshold", "sample_size",
    "read_chunk_size", "degraded_section_cap", "max_sections"]

def fieldNames : List String :=
  sizeNames ++ ["external_timeout", "delegate_small_files", "external_analyzer"]

def capitals (name : String) : String := String.ofList (name.toList.map Char.toUpper)

/-- The variable that a field is read from. -/
def variableOf (field : String) : String := settingPrefix ++ capitals field

theorem variableOf_injective : ∀ f ∈ fieldNames, ∀ g ∈ fieldNames,
    variableOf f = variableOf g → f = g := by
  decide +kernel

/-- A field read from a text, in the way of its kind. -/
def readField? (field : String) (cs : List Char) : Option Value :=
  match field with
  | "external_timeout" => (readSeconds? cs).map Seconds.toValue
  | "delegate_small_files" => (readSwitch? cs).map .bool
  | "external_analyzer" => (readName? cs).map (.orNull .str)
  | _ => (Number.readInteger? cs).map .int

/-- What a variable gives when it is there, is not empty and reads. -/
def effective? (env : String → Option String) (read? : List Char → Option α) (x : String) :
    Option α :=
  (env x).bind fun raw => if raw = "" then none else read? raw.toList

/-- The value of a field that the environment gives. -/
def parsed? (env : String → Option String) (field : String) : Option Value :=
  effective? env (readField? field) (variableOf field)

def standardOf (field : String) : Value := (({} : Config).toValue.field? field).getD .null

/-- The environment with one variable taken out. -/
def without (env : String → Option String) (x : String) : String → Option String :=
  fun k => if k = x then none else env k

theorem setting_eq_getD : setting env name read? standard =
    (effective? env read? (settingPrefix ++ name)).getD standard := by
  rw [setting, effective?]
  cases env (settingPrefix ++ name) with
  | none => rfl
  | some raw =>
    simp only [Option.bind_some]
    split <;> rfl

theorem effective?_map : effective? env (fun cs => (read? cs).map shown) x =
    (effective? env read? x).map shown := by
  rw [effective?, effective?]
  cases env x with
  | none => rfl
  | some raw =>
    rw [Option.bind_some, Option.bind_some]
    split <;> rfl

theorem effective?_without_of_ne (h : name ≠ x) :
    effective? (without env x) read? name = effective? env read? name := by
  rw [effective?, effective?, without, if_neg h]

theorem effective?_without_self : effective? (without env x) read? x = none := by
  rw [effective?, without, if_pos rfl, Option.bind_none]

/-- A setting is the field of this name, read in this way. -/
structure ReadAs (field name : String) (read? : List Char → Option α) (shown : α → Value) :
    Prop where
  field_mem : field ∈ fieldNames
  variable_eq : variableOf field = settingPrefix ++ name
  reader_eq : readField? field = fun cs => (read? cs).map shown

theorem ReadAs.parsed?_eq (h : ReadAs field name read? shown) :
    parsed? env field = (effective? env read? (settingPrefix ++ name)).map shown := by
  rw [parsed?, h.reader_eq, effective?_map, h.variable_eq]

theorem ReadAs.shown_setting (h : ReadAs field name read? shown)
    (hs : standardOf field = shown standard) :
    shown (setting env name read? standard) = (parsed? env field).getD (standardOf field) := by
  rw [setting_eq_getD, h.parsed?_eq, hs]
  exact (Option.getD_map shown standard _).symm

theorem ReadAs.setting_without (h : ReadAs field name read? shown)
    (hx : ∀ f ∈ fieldNames, variableOf f = x → parsed? env f = none) :
    setting (without env x) name read? standard = setting env name read? standard := by
  rw [setting_eq_getD, setting_eq_getD]
  by_cases he : settingPrefix ++ name = x
  · have hnone := hx field h.field_mem (h.variable_eq.trans he)
    rw [h.parsed?_eq, Option.map_eq_none_iff] at hnone
    rw [hnone, ← he, effective?_without_self]
  · rw [effective?_without_of_ne he]

theorem readAs_size (h : field ∈ sizeNames) :
    ReadAs field (capitals field) Number.readInteger? .int where
  field_mem := List.mem_append_left _ h
  variable_eq := rfl
  reader_eq := by
    funext cs
    unfold readField?
    split
    · exact absurd h (by decide)
    · exact absurd h (by decide)
    · exact absurd h (by decide)
    · rfl

theorem readAs_timeout :
    ReadAs "external_timeout" "EXTERNAL_TIMEOUT" readSeconds? Seconds.toValue :=
  ⟨by decide, rfl, rfl⟩

theorem readAs_delegate :
    ReadAs "delegate_small_files" "DELEGATE_SMALL_FILES" readSwitch? .bool :=
  ⟨by decide, rfl, rfl⟩

theorem readAs_analyzer :
    ReadAs "external_analyzer" "EXTERNAL_ANALYZER" readName? (.orNull .str) :=
  ⟨by decide, rfl, rfl⟩

/-- Every field is what its variable gives, or the standard one. -/
theorem parsedFrom_field? (env : String → Option String) : ∀ f ∈ fieldNames,
    (parsedFrom env).toValue.field? f = some ((parsed? env f).getD (standardOf f)) := by
  have size : ∀ f ∈ sizeNames, ∀ n : Int, standardOf f = .int n →
      some (.int (setting env (capitals f) Number.readInteger? n)) =
        some ((parsed? env f).getD (standardOf f)) :=
    fun f hf n hs => congrArg some ((readAs_size hf).shown_setting hs)
  have hsizes : ∀ f ∈ sizeNames,
      (parsedFrom env).toValue.field? f = some ((parsed? env f).getD (standardOf f)) := by
    simp only [sizeNames, List.forall_mem_cons]
    refine ⟨?_, ?_, ?_, ?_, ?_, ?_, ?_, List.forall_mem_nil _⟩
    · exact size "large_file_threshold" (by decide) (50 * megabyte) rfl
    · exact size "header_chunk_size" (by decide) (5 * megabyte) rfl
    · exact size "large_section_threshold" (by decide) megabyte rfl
    · exact size "sample_size" (by decide) (100 * kilobyte) rfl
    · exact size "read_chunk_size" (by decide) (64 * kilobyte) rfl
    · exact size "degraded_section_cap" (by decide) 5 rfl
    · exact size "max_sections" (by decide) 96 rfl
  intro f hf
  rcases List.mem_append.1 hf with hf | hf
  · exact hsizes f hf
  simp only [List.mem_cons, List.not_mem_nil, or_false] at hf
  rcases hf with rfl | rfl | rfl
  · have hs : standardOf "external_timeout" = Seconds.toValue ({} : Config).externalTimeout := rfl
    exact congrArg some (readAs_timeout.shown_setting hs)
  · have hs : standardOf "delegate_small_files" = .bool ({} : Config).delegateSmallFiles := rfl
    exact congrArg some (readAs_delegate.shown_setting hs)
  · have hs : standardOf "external_analyzer" = .orNull .str ({} : Config).externalAnalyzer := rfl
    exact congrArg some (readAs_analyzer.shown_setting hs)

/-- A variable that gives no field anything may as well be missing. -/
theorem parsedFrom_without (hx : ∀ f ∈ fieldNames, variableOf f = x → parsed? env f = none) :
    parsedFrom (without env x) = parsedFrom env := by
  have size : ∀ f ∈ sizeNames, ∀ n : Int,
      setting (without env x) (capitals f) Number.readInteger? n =
        setting env (capitals f) Number.readInteger? n :=
    fun f hf _ => (readAs_size hf).setting_without hx
  simp only [parsedFrom, readAs_timeout.setting_without hx, readAs_delegate.setting_without hx,
    readAs_analyzer.setting_without hx]
  congr 1
  · exact size "large_file_threshold" (by decide) _
  · exact size "header_chunk_size" (by decide) _
  · exact size "large_section_threshold" (by decide) _
  · exact size "sample_size" (by decide) _
  · exact size "read_chunk_size" (by decide) _
  · exact size "degraded_section_cap" (by decide) _
  · exact size "max_sections" (by decide) _

/-! ## The whole is checked -/

/-- A condition that a configuration breaks, by the error that tells of it. -/
inductive Broken (c : Config) : ConfigError → Prop
  | sizes (h : c.sampleSize ≤ 0 ∨ c.readChunkSize ≤ 0 ∨ c.headerChunkSize ≤ 0) :
    Broken c .sizesNotPositive
  | threshold (h : c.largeSectionThreshold < c.sampleSize) : Broken c .thresholdBelowSample
  | caps (h : c.degradedSectionCap < 1 ∨ c.maxSections < 1) : Broken c .capsBelowOne

theorem Broken.not_valid (h : Broken c e) : ¬c.Valid := by
  rintro ⟨_, _, _, _, _, _⟩
  cases h with
  | sizes h => omega
  | threshold h => omega
  | caps h => omega

theorem broken_of_check (hl : c.loose = []) (h : c.check = .error e) : Broken c e := by
  rw [check_of_loose_nil hl] at h
  split at h
  · cases h
    exact .sizes ‹_›
  split at h
  · cases h
    exact .threshold ‹_›
  split at h
  · cases h
    exact .caps ‹_›
  · cases h

theorem ofEnvironment_eq_ok_iff : ofEnvironment env = .ok c ↔ c = parsedFrom env ∧ c.Valid := by
  rw [ofEnvironment, check_eq_ok_iff rfl]
  constructor
  · rintro ⟨rfl, h⟩
    exact ⟨rfl, h⟩
  · rintro ⟨rfl, h⟩
    exact ⟨rfl, h⟩

theorem ofEnvironment_fails_iff :
    (∃ e, ofEnvironment env = .error e) ↔ ¬(parsedFrom env).Valid := by
  constructor
  · rintro ⟨e, h⟩
    exact (broken_of_check rfl h).not_valid
  · intro h
    cases hc : ofEnvironment env with
    | ok c =>
      obtain ⟨rfl, hv⟩ := ofEnvironment_eq_ok_iff.1 hc
      exact absurd hv h
    | error e => exact ⟨e, rfl⟩

theorem ofEnvironment_without (hx : ∀ f ∈ fieldNames, variableOf f = x → parsed? env f = none) :
    ofEnvironment (without env x) = ofEnvironment env := by
  rw [ofEnvironment, ofEnvironment, parsedFrom_without hx]

theorem ofEnvironment_without_of_none (hf : field ∈ fieldNames) (h : parsed? env field = none) :
    ofEnvironment (without env (variableOf field)) = ofEnvironment env := by
  refine ofEnvironment_without fun g hg hx => ?_
  rwa [variableOf_injective g hg field hf hx]

/-! ## Sizes -/

theorem parsed?_size (hf : field ∈ sizeNames) :
    parsed? env field =
      (effective? env Number.readInteger? (variableOf field)).map .int :=
  (readAs_size hf).parsed?_eq

theorem parsed?_of_integerText {raw : String} {m : Int} (hf : field ∈ sizeNames)
    (hr : env (variableOf field) = some raw) (h : Number.IntegerText raw.toList m) :
    parsed? env field = some (.int m) := by
  have hread := Number.readInteger?_of_text h
  have hne : raw ≠ "" := by
    rintro rfl
    cases hread
  rw [parsed?_size hf, effective?, hr, Option.bind_some, if_neg hne, hread, Option.map_some]

theorem parsed?_of_unread {raw : String} (hf : field ∈ sizeNames)
    (hr : env (variableOf field) = some raw) (h : Number.readInteger? raw.toList = none) :
    parsed? env field = none := by
  rw [parsed?_size hf, effective?, hr, Option.bind_some, h, ite_self, Option.map_none]

end PETriage.Config
