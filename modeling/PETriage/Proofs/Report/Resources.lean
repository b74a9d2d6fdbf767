import PETriage.Proofs.Report.Essential
import PETriage.Proofs.Report.Sections
import PETriage.Proofs.Text.Lower

/-!
# Resources that are normalized again

A standard type loses its mark and is put into plain words. Words remain unless the mark was
followed by underscores and blanks alone; a record keeps its type then and only then when it is
printed and normalized again.
-/
namespace PETriage.Report

open Text (isBlank isBlankText)

/-! ## Types in plain words -/

def Marked (type : Text) : Prop := ['R', 'T', '_'] <+: type.head.toList

/-- Nothing but underscores and blanks after the mark of a standard type. -/
def Bare (type : Text) : Prop :=
  type.IsWhole ∧ ∃ rest, type.head.toList = 'R' :: 'T' :: '_' :: rest ∧
    ∀ c ∈ rest, c = '_' ∨ isBlank c = true

theorem Bare.marked {type : Text} (h : Bare type) : Marked type := by
  obtain ⟨-, rest, h, -⟩ := h
  rw [Marked, h]
  exact ⟨rest, rfl⟩

/-- The blanks that words are set apart with. -/
def spaced (cs : List Char) : List Char := cs.map fun c => if c == '_' then ' ' else c

theorem head_resourceTypeText {type : Text} {rest : List Char}
    (h : type.head.toList = 'R' :: 'T' :: '_' :: rest) :
    (resourceTypeText type).head = String.ofList (Text.lower (spaced rest)) := by
  rw [resourceTypeText, h]
  rfl

theorem isWhole_resourceTypeText (type : Text) :
    (resourceTypeText type).IsWhole ↔ type.IsWhole := by
  rw [resourceTypeText]
  split
  · exact List.map_eq_nil_iff
  · exact Iff.rfl

theorem resourceTypeText_of_not_marked {type : Text} (h : ¬Marked type) :
    resourceTypeText type = type := by
  rw [resourceTypeText]
  split
  · rename_i rest hrest
    exact absurd ⟨rest, hrest.symm⟩ h
  · rfl

/-- The mark is not left, and no new one arises. -/
theorem not_marked_resourceTypeText (type : Text) : ¬Marked (resourceTypeText type) := by
  intro hmark
  by_cases h : Marked type
  · obtain ⟨rest, hrest⟩ := h
    rw [Marked, head_resourceTypeText hrest.symm, String.toList_ofList] at hmark
    exact Text.not_asciiCapital_lower 'R' (hmark.subset List.mem_cons_self)
      ⟨by decide, by decide⟩
  · exact h (resourceTypeText_of_not_marked h ▸ hmark)

theorem forall_isBlank_spaced {cs : List Char} :
    (∀ c ∈ spaced cs, isBlank c = true) ↔ ∀ c ∈ cs, c = '_' ∨ isBlank c = true := by
  rw [spaced, List.forall_mem_map]
  refine forall₂_congr fun c _ => ?_
  by_cases hc : c = '_'
  · rw [hc]
    exact iff_of_true (by decide) (.inl rfl)
  · rw [if_neg (fun h => hc (eq_of_beq h))]
    exact (or_iff_right hc).symm

theorem isBlankText_iff {t : Text} :
    isBlankText t = true ↔ t.IsWhole ∧ ∀ c ∈ t.head.toList, isBlank c = true := by
  rw [isBlankText, Bool.and_eq_true, List.isEmpty_iff, List.isEmpty_iff, Text.trim_eq_nil_iff,
    Text.IsWhole]

/-- A type that is not blank becomes blank only when nothing follows its mark. -/
theorem isBlankText_resourceTypeText {type : Text} (h : isBlankText type = false) :
    isBlankText (resourceTypeText type) = true ↔ Bare type := by
  by_cases hmark : Marked type
  · obtain ⟨rest, hrest⟩ := hmark
    rw [isBlankText_iff, isWhole_resourceTypeText, head_resourceTypeText hrest.symm,
      String.toList_ofList, Text.forall_isBlank_lower, forall_isBlank_spaced]
    refine and_congr_right fun _ => ⟨fun hblank => ⟨rest, hrest.symm, hblank⟩, ?_⟩
    rintro ⟨other, hother, hblank⟩
    rw [← hrest] at hother
    cases hother
    exact hblank
  · rw [resourceTypeText_of_not_marked hmark, h]
    exact iff_of_false Bool.false_ne_true fun hbare => hmark hbare.marked

/-! ## Records that are read again -/

/-- What a printed record is read as: a blank type is unknown, all else as it is. -/
def Resource.again (r : Resource) : Resource :=
  if isBlankText r.type then { r with type := Image.unknown } else r

theorem not_marked_unknown : ¬Marked Image.unknown := by
  rw [Marked]
  decide

theorem reread_of_not_marked {r : Resource} (h : ¬Marked r.type) : r.reread = r.again := by
  rw [Resource.reread, rereadType, Resource.again]
  split
  · rw [resourceTypeText_of_not_marked not_marked_unknown]
  · rw [resourceTypeText_of_not_marked h]

theorem isBlankText_again (r : Resource) : isBlankText r.again.type = false := by
  rw [Resource.again]
  split
  · exact Image.isCodeless_unknown.1
  · exact Bool.eq_false_iff.2 ‹_›

theorem again_eq_self_iff {r : Resource} : r.again = r ↔ isBlankText r.type = false := by
  constructor
  · intro h
    exact h ▸ isBlankText_again r
  · intro h
    exact if_neg (Bool.eq_false_iff.1 h)

theorem again_again (r : Resource) : r.again.again = r.again :=
  again_eq_self_iff.2 (isBlankText_again r)

/-- The entry gives a type that is nothing but its mark. -/
def BareEntry (v : Value) : Prop := ∃ type, v.field? "type" = some (.str type) ∧ Bare type

theorem isBlankText_of_marked {type : Text} (h : Marked type) : isBlankText type = false := by
  rw [← Bool.not_eq_true, isBlankText_iff]
  rintro ⟨-, hblank⟩
  exact absurd (hblank 'R' (h.subset List.mem_cons_self)) (by decide)

theorem resourceType_cases (o : Fields) :
    (∃ type, o.get? "type" = some (.str type) ∧ Field.resourceType.resolve (.object o) = type) ∨
      Field.resourceType.resolve (.object o) = Image.unknown := by
  have hresolve : Field.resourceType.resolve (.object o) =
      (Field.textAt? "type" [] o).getD Image.unknown := by
    rw [Field.resourceType, Field.named, Field.Spec.resolve, Field.Spec.find?,
      List.findSome?_singleton]
  cases hfind : Field.textAt? "type" [] o with
  | none => exact .inr (by rw [hresolve, hfind, Option.getD_none])
  | some type =>
    refine .inl ⟨type, ?_, by rw [hresolve, hfind, Option.getD_some]⟩
    unfold Field.textAt? Field.follow? at hfind
    split at hfind
    · split at hfind
      · cases hfind
      · cases hfind
        assumption
    · cases hfind

theorem bare_resourceType {v : Value} : Bare (Field.resourceType.resolve v) ↔ BareEntry v := by
  constructor
  · intro h
    cases v with
    | object o =>
      rcases resourceType_cases o with ⟨type, htype, hresolve⟩ | hresolve
      · exact ⟨type, htype, hresolve ▸ h⟩
      · exact absurd (hresolve ▸ h.marked) not_marked_unknown
    | _ => exact absurd h.marked not_marked_unknown
  · rintro ⟨type, htype, hbare⟩
    obtain ⟨o, ho, hget⟩ := Option.bind_eq_some_iff.1 htype
    obtain rfl : v = .object o := by
      cases v with
      | object _ =>
        cases ho
        rfl
      | _ => cases ho
    rw [show Field.resourceType.resolve (.object o) = type from
      Field.named_resolve [] hget (isBlankText_of_marked hbare.marked)]
    exact hbare

/-! ## Entries and their records -/

/-- What an entry that is an object is turned into, and that record in turn. -/
structure Recorded (v : Value) (r : Resource) : Prop where
  built : resourceOf? v = .ok (some r)
  unmarked : ¬Marked r.type
  blank : isBlankText r.type = true ↔ BareEntry v
  again : resourceOf? r.toValue = .ok (some r.again)
  stable : resourceOf? r.toValue = .ok (some r) ↔ ¬BareEntry v

theorem type_of_resourceOf? {v : Value} {r : Resource} (h : resourceOf? v = .ok (some r)) :
    r.type = resourceTypeText (Field.resourceType.resolve v) := by
  unfold resourceOf? at h
  split at h
  · simp only [bind_eq_ok_iff] at h
    obtain ⟨language, -, entropy, -, h⟩ := h
    cases h
    rfl
  · cases h

theorem Resource.Canonical.rereads {r : Resource} (h : r.Canonical) :
    Number.Rereads 6 r.entropy := by
  obtain ⟨x, hx⟩ := h.entropy
  exact hx ▸ rereads_entropyField x

theorem recorded_of_resourceOf? {v : Value} {r : Resource} (h : resourceOf? v = .ok (some r)) :
    Recorded v r := by
  have hc := resourceOf?_canonical h
  have htype := type_of_resourceOf? h
  have hunmarked : ¬Marked r.type := htype ▸ not_marked_resourceTypeText _
  have hblank : isBlankText r.type = true ↔ BareEntry v := by
    rw [htype, ← bare_resourceType]
    exact isBlankText_resourceTypeText (Field.isBlankText_named [("type", [])] rfl v)
  have hagain : resourceOf? r.toValue = .ok (some r.again) :=
    reread_of_not_marked hunmarked ▸ resourceOf?_toValue hc hc.rereads
  refine ⟨h, hunmarked, hblank, hagain, ?_⟩
  rw [hagain, Except.ok.injEq, Option.some.injEq, again_eq_self_iff, ← hblank,
    Bool.not_eq_true]

theorem recorded_of_mapM {items : List Value} {found : List (Option Resource)}
    (h : items.mapM resourceOf? = .ok found) :
    List.Forall₂ Recorded (items.filter fun v => v.fields?.isSome) (found.filterMap id) := by
  induction items generalizing found with
  | nil =>
    cases h
    exact .nil
  | cons v items ih =>
    simp only [List.mapM_cons, bind_eq_ok_iff] at h
    obtain ⟨first, hfirst, rest, hrest, h⟩ := h
    cases h
    cases v with
    | object o =>
      obtain ⟨r, rfl⟩ : ∃ r, first = some r := by
        simp only [resourceOf?, bind_eq_ok_iff] at hfirst
        obtain ⟨language, -, entropy, -, hfirst⟩ := hfirst
        cases hfirst
        exact ⟨_, rfl⟩
      exact .cons (recorded_of_resourceOf? hfirst) (ih hrest)
    | _ =>
      cases hfirst
      have hrecorded := ih hrest
      exact hrecorded

/-! ## Whole analyses -/

theorem resources_of_assemble {o : Fields} {parts : Parts} {fileSize : Option Int} {a : Analysis}
    (h : Analysis.assemble o parts fileSize = .ok a) :
    resourcesOf (fieldOrNull o "resources") = .ok a.resources := by
  simp only [Analysis.assemble, bind_eq_ok_iff] at h
  obtain ⟨imports, -, resources, hr, optional, -, h⟩ := h
  cases h
  exact hr

theorem resources_of_normalize {raw : Raw} {o : Fields} {a : Analysis} (h : raw.Bears o)
    (ha : normalize raw = .ok a) : resourcesOf (fieldOrNull o "resources") = .ok a.resources := by
  cases h with
  | tagged fileSize => exact resources_of_assemble ha
  | value =>
    simp only [normalize, Analysis.ofValue] at ha
    split at ha
    · exact resources_of_assemble ha
    · exact resources_of_assemble ha

theorem Raw.Bears.sourced {raw : Raw} {o : Fields} (h : raw.Bears o) : raw.Sourced := by
  cases h with
  | tagged fileSize => exact .tagged _ _
  | value => exact .value _

theorem get?_sized (a : Analysis) {key : String} (h : "file_size" ≠ key) :
    a.sized.toFields.get? key = a.toFields.get? key := by
  simp only [Analysis.toFields, List.append_assoc, List.cons_append, Keyed.get?, Text.ofString_inj,
    if_neg h]
  rfl

/-- No part of a printed analysis is out of range, so it can always be normalized again. -/
theorem exists_ofValue_toValue {a : Analysis} {rs : List Resource} (hc : a.sized.Canonical)
    (hrs : a.resources = some rs) (hunmarked : ∀ r ∈ rs, ¬Marked r.type) :
    ∃ b, Analysis.ofValue a.toValue = .ok b ∧ b.resources = some (rs.map Resource.again) := by
  have hp := toFields_printed a.sized
  have himports : importsOf (fieldOrNull a.toFields "imports") = .ok a.imports := by
    rw [fieldOrNull, ← get?_sized a (by decide)]
    exact imports_of_printed hc hp
  have hoptional : (objectOrNone optionalOf (fieldOrNull a.toFields "optional_header")).mapM id =
      .ok a.optional := by
    rw [fieldOrNull, ← get?_sized a (by decide)]
    exact optional_of_printed hc hp
  have hresources : resourcesOf (fieldOrNull a.toFields "resources") =
      .ok (some (rs.map Resource.again)) := by
    have hcanonical := hc.resources rs hrs
    rw [fieldOrNull, (toFields_printed a).resources, hrs]
    refine (resourcesOf_toValue hcanonical fun r hr => (hcanonical r hr).rereads).trans ?_
    exact congrArg (fun xs => Except.ok (some xs))
      (List.map_congr_left fun r hr => reread_of_not_marked (hunmarked r hr))
  have hprinted : Analysis.ofValue a.toValue = Analysis.ofPrinted a.toFields := by
    show (if isPayload a.toFields then _ else Analysis.ofPrinted a.toFields) = _
    rw [isPayload_of_printed (toFields_printed a)]
    rfl
  rw [hprinted, ofPrinted_eq_assemble]
  simp only [Analysis.assemble, bind_eq_ok_iff]
  exact ⟨_, ⟨_, himports, _, hresources, _, hoptional, rfl⟩, rfl⟩

theorem Recorded.again_eq_iff {v : Value} {r : Resource} (h : Recorded v r) :
    r.again = r ↔ ¬BareEntry v := by
  rw [again_eq_self_iff, ← h.blank, Bool.not_eq_true]

theorem map_again_eq_iff {vs : List Value} {rs : List Resource} (h : List.Forall₂ Recorded vs rs) :
    rs.map Resource.again = rs ↔ ∀ v ∈ vs, ¬BareEntry v := by
  induction h with
  | nil => exact iff_of_true rfl nofun
  | cons hr _ ih => rw [List.map_cons, List.cons.injEq, ih, hr.again_eq_iff, List.forall_mem_cons]

theorem BareEntry.isObject {v : Value} (h : BareEntry v) : v.fields?.isSome = true := by
  obtain ⟨type, htype, -⟩ := h
  obtain ⟨o, ho, -⟩ := Option.bind_eq_some_iff.1 htype
  rw [ho, Option.isSome_some]

theorem not_marked_again {r : Resource} (h : ¬Marked r.type) : ¬Marked r.again.type := by
  rw [Resource.again]
  split
  · exact not_marked_unknown
  · exact h

/-- Each entry that is an object gives a record in its turn, which is read again as it is unless
the entry's type is nothing but its mark: then the type of the record is blank, and it is read as
unknown. The analysis can always be normalized again, to the same resources if and only if it has
no such entry, and from then on its resources stay as they are. -/
theorem resources_normalized_again {raw : Raw} {room : Option Nat} {o : Fields}
    {items : List Value} {a : Analysis} (h : raw.Bears o)
    (hitems : o.get? "resources" = some (.list items)) (ha : normalize raw room = .ok a) :
    ∃ rs b c, a.resources = some rs ∧
      List.Forall₂ Recorded (items.filter fun v => v.fields?.isSome) rs ∧
      normalize (.value a.toValue) room = .ok b ∧ b.resources = some (rs.map Resource.again) ∧
      (b.resources = a.resources ↔ ∀ v ∈ items, ¬BareEntry v) ∧
      normalize (.value b.toValue) room = .ok c ∧ c.resources = b.resources := by
  obtain ⟨hcopyable, ha⟩ := normalize_eq_ok_iff.1 ha
  rw [← payload_of_normalize ha] at hcopyable
  have hresources := resources_of_normalize h ha
  rw [fieldOrNull, hitems, Option.getD_some] at hresources
  simp only [resourcesOf, bind_eq_ok_iff] at hresources
  obtain ⟨found, hfound, hrs⟩ := hresources
  have hrs : a.resources = some (found.filterMap id) := (Except.ok.inj hrs).symm
  have hrecorded := recorded_of_mapM hfound
  have hunmarked : ∀ r ∈ found.filterMap id, ¬Marked r.type := by
    intro r hr
    obtain ⟨entry, hentry, hr⟩ := List.mem_filterMap.1 hr
    obtain ⟨v, -, hv⟩ := exists_of_mem_mapM hfound hentry
    exact (recorded_of_resourceOf? (hv.trans (congrArg _ hr))).unmarked
  generalize found.filterMap id = rs at hrs hrecorded hunmarked
  obtain ⟨b, hb, hbrs⟩ := exists_ofValue_toValue (sized_canonical h.sourced ha) hrs hunmarked
  have hbsized : b.sized.Canonical := sized_canonical (.value a.toValue) hb
  obtain ⟨c, hc, hcrs⟩ := exists_ofValue_toValue hbsized hbrs
    (List.forall_mem_map.2 fun r hr => not_marked_again (hunmarked r hr))
  have hbcopyable : Copyable room b.payload := by
    have hpayload : b.payload = (Raw.value a.toValue).payload? := payload_of_normalize hb
    rw [hpayload, payload?_toValue]
    exact hcopyable
  refine ⟨rs, b, c, hrs, hrecorded, normalize_toValue hcopyable hb, hbrs, ?_,
    normalize_toValue hbcopyable hc, ?_⟩
  · rw [hbrs, hrs, Option.some.injEq, map_again_eq_iff hrecorded]
    refine ⟨fun hall v hv hbare => ?_, fun hall v hv => hall v (List.mem_filter.1 hv).1⟩
    exact hall v (List.mem_filter.2 ⟨hv, hbare.isObject⟩) hbare
  · have hagain : Resource.again ∘ Resource.again = Resource.again :=
      funext fun r => by rw [Function.comp_apply, again_again]
    rw [hcrs, hbrs, List.map_map, hagain]

/-- A type in words, one that is nothing but its mark, and an entry that is no object. -/
def iconPayload : Fields := [("resources", .list [
  .object [("type", .str "RT_GROUP_ICON")], .object [("type", .str "RT__")], .null])]

theorem resources_normalized_again_icon : ∃ a b,
    normalize (.value (.object iconPayload)) = .ok a ∧ normalize (.value a.toValue) = .ok b ∧
    a.resources = some [⟨"group icon", Image.unknown, 0, "0.000000", ""⟩,
      ⟨" ", Image.unknown, 0, "0.000000", ""⟩] ∧
    b.resources = some [⟨"group icon", Image.unknown, 0, "0.000000", ""⟩,
      ⟨Image.unknown, Image.unknown, 0, "0.000000", ""⟩] := by
  obtain ⟨a, ha, hars⟩ : ∃ a, normalize (.value (.object iconPayload)) = .ok a ∧
      a.resources = some [⟨"group icon", Image.unknown, 0, "0.000000", ""⟩,
        ⟨" ", Image.unknown, 0, "0.000000", ""⟩] := ⟨_, rfl, by decide +kernel⟩
  obtain ⟨rs, b, -, hrs, -, hb, hbrs, -⟩ := resources_normalized_again .value rfl ha
  obtain rfl := Option.some.inj (hars.symm.trans hrs)
  exact ⟨a, b, ha, hb, hars, hbrs.trans (by decide +kernel)⟩

/-- A record whose type is blank, and which is not read as it was. -/
theorem bare_type_lost : ∃ a r, normalize (.value (.object [("header", .object []),
      ("sections", .list []), ("resources", .list [.object [("type", .str "RT_")]])])) = .ok a ∧
    a.resources = some [r] ∧ r.type = "" ∧ resourceOf? r.toValue ≠ .ok (some r) ∧
    a.readsBack = .ok false :=
  ⟨_, ⟨"", Image.unknown, 0, "0.000000", ""⟩, rfl, by decide +kernel, rfl, by decide +kernel,
    by decide +kernel⟩

end PETriage.Report
