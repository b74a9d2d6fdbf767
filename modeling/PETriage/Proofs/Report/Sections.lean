import PETriage.Proofs.Except
import PETriage.Proofs.Field.Deciding
import PETriage.Proofs.Report.Encodings
import PETriage.Proofs.Report.Room

/-!
# Sections that stand alone

Each entry of the sections of a payload becomes one section in its place. An entry that cannot be
read becomes a placeholder there, and what stands in the other entries makes no difference to it:
nor does it to anything else, since sections are read by themselves.
-/
namespace PETriage.Report

open PETriage.Field (TooLarge Unnumeric SameNumber keys)

variable {o : Fields} {v w : Value}

/-! ## One entry -/

/-- An entry that cannot be read: it is no object, or one of its two statistics is a whole number
that is too large for a binary value. -/
inductive Unreadable : Value → Prop
  | noObject {v : Value} (h : v.fields? = none) : Unreadable v
  | entropy {o : Fields} (h : TooLarge (o.get? "entropy")) : Unreadable (.object o)
  | chiSquare {o : Fields} {before after : List String} {key : String}
    (hkeys : ["chi_square", "chiSquared", "chiSquare"] = before ++ key :: after)
    (hbefore : ∀ k ∈ before, Unnumeric (o.get? k)) (h : TooLarge (o.get? key)) :
    Unreadable (.object o)

/-- Every fact about the section stands in the entry or is the standard one. -/
structure SectionEntry.ReadFrom (o : Fields) (s : SectionEntry) : Prop where
  name : Field.sectionName.Gives o s.name
  address : ∃ n, Field.sectionAddress.Gives o n ∧ s.address = addressText n
  virtualSize : ∃ n : Nat, Field.sectionVirtualSize.Gives o n ∧ s.virtualSize = n
  rawSize : ∃ n : Nat, Field.sectionRawSize.Gives o n ∧ s.rawSize = n
  entropy : ∃ x, Field.sectionEntropy.Gives o (.ok x) ∧ s.entropy = entropyField x
  chiSquare : ∃ x, Field.sectionChiSquare.Gives o (.ok x) ∧ s.chiSquare = chiSquareField x
  characteristics : ∃ n : Nat, Field.sectionCharacteristics.Gives o n ∧ s.characteristics = n

theorem sectionEntropy_eq_error_iff {e : Field.RangeError} :
    Field.sectionEntropy.resolve (.object o) = .error e ↔ TooLarge (o.get? "entropy") :=
  Field.real_singleton_eq_error_iff

theorem unreadable_object_iff : Unreadable (.object o) ↔
    (∃ e, Field.sectionEntropy.resolve (.object o) = .error e) ∨
      ∃ e, Field.sectionChiSquare.resolve (.object o) = .error e := by
  simp only [sectionEntropy_eq_error_iff, Field.sectionChiSquare, Field.real_resolve_eq_error_iff,
    exists_const_iff]
  constructor
  · intro h
    cases h with
    | noObject h => cases h
    | entropy h => exact .inl ⟨⟨.tooLarge⟩, h⟩
    | chiSquare hkeys hbefore h => exact .inr ⟨⟨.tooLarge⟩, _, _, _, hkeys, hbefore, h⟩
  · rintro (⟨-, h⟩ | ⟨-, before, key, after, hkeys, hbefore, h⟩)
    · exact .entropy h
    · exact .chiSquare hkeys hbefore h

theorem sectionOf?_eq_none_iff : sectionOf? v = none ↔ Unreadable v := by
  cases v with
  | object o =>
    rw [unreadable_object_iff, sectionOf?]
    cases Field.sectionEntropy.resolve (.object o) with
    | error e => exact iff_of_true rfl (.inl ⟨e, rfl⟩)
    | ok x =>
      cases Field.sectionChiSquare.resolve (.object o) with
      | error e => exact iff_of_true rfl (.inr ⟨e, rfl⟩)
      | ok y => exact iff_of_false (Option.some_ne_none _) (by rintro (⟨e, h⟩ | ⟨e, h⟩) <;> cases h)
  | _ => exact iff_of_true rfl (.noObject rfl)

theorem readFrom_of_sectionOf? {s : SectionEntry} (h : sectionOf? v = some s) :
    ∃ o, v = .object o ∧ s.ReadFrom o := by
  cases v with
  | object o =>
    have hentropy := Field.sectionEntropy.resolve_gives o
    have hchi := Field.sectionChiSquare.resolve_gives o
    rw [sectionOf?] at h
    split at h
    · rename_i x y hx hy
      rw [hx] at hentropy
      rw [hy] at hchi
      cases h
      exact ⟨o, rfl, {
        name := Field.sectionName.resolve_gives o
        address := ⟨_, Field.sectionAddress.resolve_gives o, rfl⟩
        virtualSize := ⟨_, Field.sectionVirtualSize.resolve_gives o, rfl⟩
        rawSize := ⟨_, Field.sectionRawSize.resolve_gives o, rfl⟩
        entropy := ⟨x, hentropy, rfl⟩
        chiSquare := ⟨y, hchi, rfl⟩
        characteristics := ⟨_, Field.sectionCharacteristics.resolve_gives o, rfl⟩ }⟩
    · cases h
  | _ => cases h

/-- What an entry is turned into, by whether it can be read. -/
theorem sectionOf_cases (v : Value) :
    (Unreadable v ∧ sectionOf v = { name := "Error processing section" }) ∨
      (¬Unreadable v ∧ ∃ o, v = .object o ∧ (sectionOf v).ReadFrom o) := by
  rw [sectionOf, ← sectionOf?_eq_none_iff]
  cases h : sectionOf? v with
  | none => exact .inl ⟨rfl, rfl⟩
  | some s => exact .inr ⟨Option.some_ne_none s, readFrom_of_sectionOf? h⟩

/-! ## Other sections in a payload -/

theorem get?_putSections (o : Fields) (w : Value) {key : String} (h : key ≠ "sections") :
    (o.put "sections" w).get? key = o.get? key := by
  rw [Keyed.get?_put, if_neg (Text.ofString_inj.not.2 h)]

/-- The sections of an analysis are all that comes of the sections of a payload. -/
theorem assemble_putSections (o : Fields) (w : Value) (parts : Parts) (payload : Option Fields)
    (fileSize : Option Int) :
    Analysis.assemble (o.put "sections" w) { parts with payload := payload } fileSize =
      (Analysis.assemble o parts fileSize).map fun a =>
        { a with sections := sectionsOf w, payload := payload } := by
  have hget : ∀ {key}, key ≠ "sections" → (o.put "sections" w).get? key = o.get? key :=
    get?_putSections o w
  have hsize : Field.fileSize.Agrees (o.put "sections" w) o := by
    have hkeys : ∀ k ∈ keys "file_size" [], k ≠ "sections" := by decide
    exact (SameNumber.same fun k hk => hget (hkeys k hk)).numeric
  have hname : Field.machineType.Agrees (o.put "sections" w) o :=
    machineType_congr (hget (by decide)) (hget (by decide))
  have htime : Field.timestamp.Agrees (o.put "sections" w) o := timestamp_congr (hget (by decide))
  have herror : errorOf (o.put "sections" w) = errorOf o := errorOf_congr (hget (by decide))
  have himports : fieldOrNull (o.put "sections" w) "imports" = fieldOrNull o "imports" :=
    fieldOrNull_congr (hget (by decide))
  have hresources : fieldOrNull (o.put "sections" w) "resources" = fieldOrNull o "resources" :=
    fieldOrNull_congr (hget (by decide))
  have hsections : fieldOrNull (o.put "sections" w) "sections" = w := by
    rw [fieldOrNull, Keyed.get?_put, if_pos rfl, Option.getD_some]
  simp only [Analysis.assemble, hsize, hname, htime, herror, himports, hresources, hsections]
  cases importsOf (fieldOrNull o "imports") with
  | error e => rfl
  | ok imports =>
    cases resourcesOf (fieldOrNull o "resources") with
    | error e => rfl
    | ok resources =>
      cases (objectOrNone optionalOf parts.optional).mapM id <;> rfl

theorem sections_of_assemble {parts : Parts} {fileSize : Option Int} {a : Analysis}
    (h : Analysis.assemble o parts fileSize = .ok a) :
    a.sections = sectionsOf (fieldOrNull o "sections") := by
  simp only [Analysis.assemble, bind_eq_ok_iff] at h
  obtain ⟨imports, -, resources, -, optional, -, h⟩ := h
  cases h
  rfl

/-- A payload by itself or with the size of its file, whose object is this one. -/
inductive Raw.Bears (o : Fields) : Raw → Prop
  | tagged (fileSize : Option Int) : Bears o (.tagged (.object o) fileSize)
  | value : Bears o (.value (.object o))

/-- The same payload with another object. -/
def Raw.withObject (o : Fields) : Raw → Raw
  | .tagged _ fileSize => .tagged (.object o) fileSize
  | .value _ => .value (.object o)
  | raw => raw

theorem ofPayload_putSections (o : Fields) (w : Value) (fileSize : Option Int) :
    Analysis.ofPayload (o.put "sections" w) fileSize = (Analysis.ofPayload o fileSize).map fun a =>
      { a with sections := sectionsOf w, payload := some (o.put "sections" w) } := by
  have hheader := get?_putSections o w (show "header" ≠ "sections" by decide)
  simp only [ofPayload_eq_assemble, Parts.ofPayload, hheader]
  exact assemble_putSections o w ⟨_, _, _, _, some o⟩ _ _

theorem ofPrinted_putSections (o : Fields) (w : Value) :
    Analysis.ofPrinted (o.put "sections" w) = (Analysis.ofPrinted o).map fun a => { a with
      sections := sectionsOf w, payload := (o.get? "raw_payload").bind Value.fields? } := by
  have hget : ∀ {key}, key ≠ "sections" → (o.put "sections" w).get? key = o.get? key :=
    get?_putSections o w
  simp only [ofPrinted_eq_assemble, Parts.ofPrinted, fieldOrNull,
    hget (show "dos_header" ≠ "sections" by decide),
    hget (show "file_header" ≠ "sections" by decide),
    hget (show "optional_header" ≠ "sections" by decide),
    hget (show "data_directories" ≠ "sections" by decide),
    hget (show "raw_payload" ≠ "sections" by decide)]
  exact assemble_putSections o w ⟨_, _, _, _, (o.get? "raw_payload").bind Value.fields?⟩ _ none

theorem normalize_putSections {raw : Raw} (h : raw.Bears o) (w : Value) :
    ∃ payload, normalize (raw.withObject (o.put "sections" w)) = (normalize raw).map fun a =>
      { a with sections := sectionsOf w, payload := payload } := by
  cases h with
  | tagged fileSize => exact ⟨_, ofPayload_putSections o w fileSize⟩
  | value =>
    have hheader := get?_putSections o w (show "header" ≠ "sections" by decide)
    have hpayload : isPayload (o.put "sections" w) = isPayload o := by
      rw [isPayload, isPayload, hheader]
    simp only [Raw.withObject, normalize, Analysis.ofValue, hpayload]
    split
    · exact ⟨_, ofPayload_putSections o w none⟩
    · exact ⟨_, ofPrinted_putSections o w⟩

theorem sections_of_normalize {raw : Raw} (h : raw.Bears o) {a : Analysis}
    (ha : normalize raw = .ok a) : a.sections = sectionsOf (fieldOrNull o "sections") := by
  cases h with
  | tagged fileSize => exact sections_of_assemble ha
  | value =>
    simp only [normalize, Analysis.ofValue] at ha
    split at ha
    · exact sections_of_assemble ha
    · exact sections_of_assemble ha

/-- Each entry of a list of sections gives the section in its place, and nothing else: an entry
that cannot be read gives the record that says so, any other one a record of what stands in it,
and another entry in its place, if there is room to copy it, changes no other section and nothing
but the sections. -/
theorem sections_stand_alone {raw : Raw} {room : Option Nat} {items : List Value} {a : Analysis}
    (h : raw.Bears o) (hs : o.get? "sections" = some (.list items))
    (ha : normalize raw room = .ok a) :
    a.sections.length = items.length ∧
    (∀ (i : Nat) v, items[i]? = some v →
      (sectionOf? v = none ↔ Unreadable v) ∧
      (Unreadable v → a.sections[i]? = some { name := "Error processing section" }) ∧
      (¬Unreadable v → ∃ entry s, v = .object entry ∧ a.sections[i]? = some s ∧
        s.ReadFrom entry)) ∧
    ∀ (i : Nat) v,
      Copyable room (raw.withObject (o.put "sections" (.list (items.set i v)))).payload? → ∃ a',
      normalize (raw.withObject (o.put "sections" (.list (items.set i v)))) room = .ok a' ∧
      a'.sections.length = items.length ∧ (∀ j, j ≠ i → a'.sections[j]? = a.sections[j]?) ∧
      a' = { a with sections := a'.sections, payload := a'.payload } := by
  replace ha := (normalize_eq_ok_iff.1 ha).2
  have hsections : a.sections = items.map sectionOf := by
    rw [sections_of_normalize h ha, fieldOrNull, hs]
    rfl
  have hat : ∀ (i : Nat) v, items[i]? = some v → a.sections[i]? = some (sectionOf v) := by
    intro i v hv
    rw [hsections, List.getElem?_map, hv, Option.map_some]
  refine ⟨by rw [hsections, List.length_map], fun i v hv => ⟨sectionOf?_eq_none_iff, ?_, ?_⟩,
    fun i v hcopyable => ?_⟩
  · intro hu
    rcases sectionOf_cases v with ⟨-, he⟩ | ⟨hr, -⟩
    · rw [hat i v hv, he]
    · exact absurd hu hr
  · intro hr
    rcases sectionOf_cases v with ⟨hu, -⟩ | ⟨-, entry, he, hread⟩
    · exact absurd hu hr
    · exact ⟨entry, sectionOf v, he, hat i v hv, hread⟩
  · obtain ⟨payload, hnormalize⟩ := normalize_putSections h (.list (items.set i v))
    rw [ha] at hnormalize
    refine ⟨_, (normalize_of_copyable hcopyable).trans hnormalize, ?_, fun j hj => ?_, rfl⟩
    · simp only [sectionsOf, List.length_map, List.length_set]
    · simp only [sectionsOf, List.map_set, hsections, List.getElem?_set_ne (Ne.symm hj)]

/-- A text, a section whose second spelling of a statistic holds the number, and a plain one. -/
def mixedEntries (n : Int) : List Value := [
  .str ".text", .object [("chi_square", .null), ("chiSquared", .int n), ("chiSquare", .int 1)],
  .object [("name", .str ".data"), ("entropy", .float 4.5)]]

def mixedPayload (n : Int) : Fields := [("sections", .list (mixedEntries n))]

/-- With a number that is too large the first two entries cannot be read, and the third is. -/
theorem sections_stand_alone_mixed : ∃ n a,
    Raw.Bears (mixedPayload n) (.tagged (.object (mixedPayload n)) none) ∧
    (mixedPayload n).get? "sections" = some (.list (mixedEntries n)) ∧
    normalize (.tagged (.object (mixedPayload n)) none) = .ok a ∧ a.sections.length = 3 ∧
    a.sections[0]? = some { name := "Error processing section" } ∧
    a.sections[1]? = some { name := "Error processing section" } ∧
    ∃ s, a.sections[2]? = some s ∧
      s.ReadFrom [("name", .str ".data"), ("entropy", .float 4.5)] := by
  have hlarge : Number.overflowBound ≤ ((Nat.pow 10 400 : Nat) : Int).natAbs := by decide +kernel
  generalize ((Nat.pow 10 400 : Nat) : Int) = n at hlarge
  have hbears : Raw.Bears (mixedPayload n) (.tagged (.object (mixedPayload n)) none) := .tagged _
  obtain ⟨a, ha⟩ : ∃ a, normalize (.tagged (.object (mixedPayload n)) none) = .ok a := ⟨_, rfl⟩
  obtain ⟨hlength, hentries, -⟩ := sections_stand_alone hbears rfl ha
  obtain ⟨-, htext, -⟩ := hentries 0 _ rfl
  obtain ⟨-, hnumber, -⟩ := hentries 1 _ rfl
  obtain ⟨-, -, hplain⟩ := hentries 2 _ rfl
  have hskipped : ∀ k ∈ ["chi_square"], Unnumeric (Keyed.get? ([("chi_square", .null),
      ("chiSquared", .int n), ("chiSquare", .int 1)] : Fields) k) := by
    intro k hk
    cases List.mem_singleton.1 hk
    trivial
  have hreadable : ¬Unreadable (.object [("name", .str ".data"), ("entropy", .float 4.5)]) := by
    obtain ⟨s, hs⟩ : ∃ s, sectionOf? (.object [("name", .str ".data"), ("entropy", .float 4.5)]) =
      some s := ⟨_, rfl⟩
    rw [← sectionOf?_eq_none_iff, hs]
    nofun
  obtain ⟨entry, s, hentry, hs, hread⟩ := hplain hreadable
  cases hentry
  exact ⟨n, a, hbears, rfl, ha, hlength, htext (.noObject rfl),
    hnumber (@Unreadable.chiSquare _ ["chi_square"] ["chiSquare"] "chiSquared" rfl hskipped hlarge),
    s, hs, hread⟩

end PETriage.Report
