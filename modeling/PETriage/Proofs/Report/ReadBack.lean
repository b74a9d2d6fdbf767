import PETriage.Proofs.Report.Records
import PETriage.Proofs.Report.Room

/-!
# Analyses that are read back

Normalizing an analysis that was normalized and printed gives the same analysis, but for the
types of its resources. A canonical analysis is read back part by part from what `Printed` says
about its fields, and normalization gives canonical analyses alone.
-/
namespace PETriage.Report
variable {a : Analysis}

/-- Every statistic is printed as the text that it is read from. -/
structure Analysis.Rereads (a : Analysis) : Prop where
  sections : ∀ s ∈ a.sections, Number.Rereads 6 s.entropy ∧ Number.Rereads 2 s.chiSquare
  resources : ∀ rs ∈ a.resources, ∀ r ∈ rs, Number.Rereads 6 r.entropy

/-- The analysis with the types of its resources read once more. -/
def Analysis.reread (a : Analysis) : Analysis :=
  { a with resources := a.resources.map (·.map Resource.reread) }

/-! ## The fields of a printed analysis -/

theorem get?_part {α : Type} (key : String) (f : α → Value) (value : Option α) (k : String) :
    (Analysis.part key f value).get? k = if key = k then value.map f else none := by
  cases value with
  | none => simp [Analysis.part, Keyed.get?]
  | some x => simp [Analysis.part, Keyed.get?]

/-- The fields hold the analysis, and no header as a payload does. -/
structure Analysis.Printed (a : Analysis) (o : Fields) : Prop where
  header : o.get? "header" = none
  fileSize : o.get? "file_size" = some (.int a.fileSize)
  machine : o.get? "machine_type" = some (.str a.machine)
  timestamp : o.get? "timestamp" = some (.str a.timestamp)
  sections : o.get? "sections" = some (.list (a.sections.map SectionEntry.toValue))
  imports : o.get? "imports" = a.imports.map fun is => .list (is.map Import.toValue)
  resources : o.get? "resources" = a.resources.map fun rs => .list (rs.map Resource.toValue)
  dos : o.get? "dos_header" = a.dos.map dosValue
  file : o.get? "file_header" = a.file.map fileValue
  optional : o.get? "optional_header" = a.optional.map optionalValue
  directories : o.get? "data_directories" = some (.list (a.directories.map directoryValue))
  error : o.get? "error" = a.error.map .str
  payload : o.get? "raw_payload" = a.payload.map .object

theorem toFields_printed (a : Analysis) : a.Printed a.toFields := by
  constructor <;> simp [Analysis.toFields, Keyed.get?_append, get?_part, Keyed.get?]

/-! ## Parts of a printed analysis -/

theorem isPayload_of_printed {o : Fields} (hp : a.Printed o) : isPayload o = false := by
  rw [isPayload, hp.header]
  rfl

theorem objectOrNone_fieldOrNull {α β : Type} {f : Value → β} {g : α → Value} {o : Fields}
    {key : String} {part : Option α} {h : α → β} (hk : o.get? key = part.map g)
    (hf : ∀ x ∈ part, objectOrNone f (g x) = some (h x)) :
    objectOrNone f (fieldOrNull o key) = part.map h := by
  rw [fieldOrNull, hk]
  cases part with
  | none => rfl
  | some x => exact hf x rfl

theorem optional_of_printed (hc : a.Canonical) {o : Fields} (hp : a.Printed o) :
    (objectOrNone optionalOf (fieldOrNull o "optional_header")).mapM id = .ok a.optional := by
  rw [objectOrNone_fieldOrNull hp.optional
    fun h ho => congrArg some (optionalOf_optionalValue (hc.optional h ho))]
  cases a.optional with
  | none => rfl
  | some h => rfl

theorem imports_of_printed (hc : a.Canonical) {o : Fields} (hp : a.Printed o) :
    importsOf (fieldOrNull o "imports") = .ok a.imports := by
  rw [fieldOrNull, hp.imports]
  cases hi : a.imports with
  | none => rfl
  | some is => exact importsOf_toValue (hc.imports is hi)

theorem payload_of_printed {o : Fields} (hp : a.Printed o) :
    (o.get? "raw_payload").bind Value.fields? = a.payload := by
  rw [hp.payload]
  cases a.payload with
  | none => rfl
  | some p => rfl

theorem payload?_toValue (a : Analysis) : (Raw.value a.toValue).payload? = a.payload := by
  have hp := toFields_printed a
  show (if isPayload a.toFields then _ else _) = _
  rw [isPayload_of_printed hp]
  exact payload_of_printed hp

theorem normalize_toValue {room : Option Nat} {b : Analysis} (hc : Copyable room a.payload)
    (h : Analysis.ofValue a.toValue = .ok b) : normalize (.value a.toValue) room = .ok b :=
  normalize_eq_ok_iff.2 ⟨(payload?_toValue a).symm ▸ hc, h⟩

end PETriage.Report
