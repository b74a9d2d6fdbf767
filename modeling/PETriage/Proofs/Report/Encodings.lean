import PETriage.Proofs.Field.Encodings
import PETriage.Report.Normalize

/-!
# Payloads that differ in their encodings

Writing the numbers of a payload in another way, or moving them to other keys of their fields,
changes nothing about what the payload is turned into.
-/
namespace PETriage.Report

open PETriage.Field (keys Alike SameNumber SameRecord SameList SamePlain)

variable {o o' : Fields} {v v' : Value}

/-! ## Numeric fields of each record -/

def dosNames : List String := [
  "e_lfanew", "e_cblp", "e_cp", "e_crlc", "e_cparhdr", "e_minalloc", "e_maxalloc", "e_ss", "e_sp",
  "e_csum", "e_ip", "e_cs", "e_lfarlc", "e_ovno"]

def fileNames : List String := [
  "number_of_sections", "time_date_stamp", "pointer_to_symbol_table", "number_of_symbols",
  "size_of_optional_header", "characteristics"]

def optionalNames : List String := [
  "major_linker_version", "minor_linker_version", "size_of_code", "size_of_initialized_data",
  "size_of_uninitialized_data", "address_of_entry_point", "base_of_code", "base_of_data",
  "image_base", "section_alignment", "file_alignment", "major_operating_system_version",
  "minor_operating_system_version", "major_image_version", "minor_image_version",
  "major_subsystem_version", "minor_subsystem_version", "win32_version_value", "size_of_image",
  "size_of_headers", "dll_characteristics", "size_of_stack_reserve", "size_of_stack_commit",
  "size_of_heap_reserve", "size_of_heap_commit", "loader_flags", "number_of_rva_and_sizes"]

def dosNumbers : List (List String) :=
  keys "e_magic" ["magic"] :: dosNames.map (keys · [])

def fileNumbers : List (List String) :=
  keys "machine_code" ["machine"] :: fileNames.map (keys · [])

def optionalNumbers : List (List String) :=
  keys "magic_code" ["magic"] :: keys "subsystem_code" ["subsystem"] ::
    keys "checksum" ["checkSum"] :: optionalNames.map (keys · [])

def directoryNumbers : List (List String) := [keys "virtual_address" [], keys "size" []]

def sectionNumbers : List (List String) := [
  keys "virtual_address" [], keys "virtual_size" ["Misc_VirtualSize"],
  keys "raw_size" ["size_of_raw_data", "sizeOfRawData"], keys "characteristics" []]

def resourceNumbers : List (List String) := [keys "size" []]

/-! ## Payloads -/

/-- The numbers that a section may keep in an object of its own. -/
def infoParts : List (String × (Value → Value → Prop)) := [
  ("virtualAddress", SamePlain), ("virtualSize", SamePlain), ("sizeOfRawData", SamePlain),
  ("characteristics", SamePlain)]

def SameDos : Value → Value → Prop := SameRecord (Alike dosNumbers [])
def SameFile : Value → Value → Prop := SameRecord (Alike fileNumbers [])
def SameOptional : Value → Value → Prop := SameRecord (Alike optionalNumbers [])
def SameDirectory : Value → Value → Prop := SameRecord (Alike directoryNumbers [])
def SameResource : Value → Value → Prop := SameRecord (Alike resourceNumbers [])
def SameSection : Value → Value → Prop :=
  SameRecord (Alike sectionNumbers [("info", SameRecord (Alike [] infoParts))])

def headerParts : List (String × (Value → Value → Prop)) := [
  ("dos", SameDos), ("file", SameFile), ("optional", SameOptional),
  ("dataDirectories", SameList SameDirectory), ("data_directories", SameList SameDirectory)]

/-- The parts of a payload of an external module and those of an analysis printed earlier. -/
def payloadParts : List (String × (Value → Value → Prop)) := [
  ("header", SameRecord (Alike [] headerParts)), ("sections", SameList SameSection),
  ("resources", SameList SameResource), ("dos_header", SameDos), ("file_header", SameFile),
  ("optional_header", SameOptional), ("data_directories", SameList SameDirectory)]

/-- Payloads with the same numbers everywhere, however they are written, and nothing else that
tells them apart. -/
def SamePayload : Fields → Fields → Prop := Alike [keys "file_size" []] payloadParts

/-! ## Headers -/

theorem headerNumber_congr {name : String} (h : SameNumber (keys name []) o o') :
    headerNumber name (.object o) = headerNumber name (.object o') := h.numeric

theorem dosOf_congr (h : Alike dosNumbers [] o o') : dosOf (.object o) = dosOf (.object o') := by
  have hmagic : Field.dosMagic.Agrees o o' :=
    (h.number _ List.mem_cons_self).numeric
  have hname : ∀ name ∈ dosNames, headerNumber name (.object o) = headerNumber name (.object o') :=
    fun name hn => headerNumber_congr (h.number _ (List.mem_cons_of_mem _ (List.mem_map_of_mem hn)))
  simp only [dosNames, List.forall_mem_cons] at hname
  simp only [dosOf, hmagic, hname]

theorem machineOf_congr (h : Alike fileNumbers [] o o') :
    machineOf (.object o) = machineOf (.object o') := by
  have hnumber : SameNumber (keys "machine_code" ["machine"]) o o' := h.number _ List.mem_cons_self
  have hcode : Field.machineCode.Agrees o o' :=
    hnumber.optional
  have hlabel : Field.machineLabel.Agrees o o' := by
    have hmem : "machine" ∈ keys "machine_code" ["machine"] := by decide
    apply Field.Spec.agrees_of_forall
    simp [Field.machineLabel, hnumber.labelAt? hmem]
  simp only [machineOf, hcode, hlabel]

theorem fileOf_congr (h : Alike fileNumbers [] o o') :
    fileOf (.object o) = fileOf (.object o') := by
  have hname : ∀ name ∈ fileNames, headerNumber name (.object o) = headerNumber name (.object o') :=
    fun name hn => headerNumber_congr (h.number _ (List.mem_cons_of_mem _ (List.mem_map_of_mem hn)))
  have hstamp : Field.timeDateStamp.Agrees o o' :=
    hname "time_date_stamp" (by decide)
  simp only [fileNames, List.forall_mem_cons] at hname
  simp only [fileOf, machineOf_congr h, hstamp, hname]

/-- The code of a subsystem that is given by its name. -/
def subsystemNamed : Option Value → Nat
  | some (.str name) => (name.whole?.bind Image.subsystems.code?).getD 0
  | _ => 0

theorem subsystemOf_object (o : Fields) : subsystemOf (.object o) =
    if Field.subsystemCode.resolve (.object o) = 0 then subsystemNamed (o.get? "subsystem")
    else Field.subsystemCode.resolve (.object o) := by
  have hfield : (Value.object o).field? "subsystem" = o.get? "subsystem" := rfl
  rw [subsystemOf, hfield]
  generalize Field.subsystemCode.resolve (.object o) = code
  cases code with
  | zero => cases o.get? "subsystem" with
    | none => rfl
    | some v => cases v <;> rfl
  | succ code => rfl

theorem naturalOfText?_subsystems : ∀ entry ∈ Image.subsystems,
    Field.naturalOfText? entry.2 = none := by
  decide +kernel

/-- A number is the name of no subsystem. -/
theorem subsystemNamed_of_holds {n : Nat} (h : Field.Holds n v) : subsystemNamed (some v) = 0 := by
  cases h with
  | plain h =>
    cases h with
    | number => rfl
    | @text s h =>
      show (Image.subsystems.code? s).getD 0 = 0
      cases hc : Image.subsystems.code? s with
      | none => rfl
      | some code =>
        obtain ⟨⟨c, name⟩, hf, rfl⟩ := Option.map_eq_some_iff.1 hc
        have hname : name = s := by simpa using List.find?_some hf
        have hnone := naturalOfText?_subsystems _ (List.mem_of_find?_eq_some hf)
        rw [hname, Field.naturalOfText?_of_written h] at hnone
        cases hnone
  | inside => rfl

theorem subsystemOf_congr (h : Alike optionalNumbers [] o o') :
    subsystemOf (.object o) = subsystemOf (.object o') := by
  have hnumber : SameNumber (keys "subsystem_code" ["subsystem"]) o o' :=
    h.number _ (by simp [optionalNumbers])
  have hcode : Field.subsystemCode.Agrees o o' :=
    hnumber.numeric
  have hname : subsystemNamed (o.get? "subsystem") = subsystemNamed (o'.get? "subsystem") :=
    hnumber.unseen subsystemNamed (fun _ _ hv => subsystemNamed_of_holds hv) _ (by decide)
  rw [subsystemOf_object, subsystemOf_object, hcode, hname]

theorem optionalOf_congr (h : Alike optionalNumbers [] o o') :
    optionalOf (.object o) = optionalOf (.object o') := by
  have hmagic : Field.optionalMagic.Agrees o o' :=
    (h.number _ (by simp [optionalNumbers])).numeric
  have hsum : Field.checksum.Agrees o o' :=
    (h.number _ (by simp [optionalNumbers])).numeric
  have hnumber : ∀ name ∈ optionalNames, SameNumber (keys name []) o o' := by
    intro name hn
    apply h.number
    simp only [optionalNumbers, List.mem_cons, List.mem_map]
    exact .inr (.inr (.inr ⟨name, hn, rfl⟩))
  have hdata : Field.baseOfData.Agrees o o' :=
    (hnumber "base_of_data" (by decide)).optional
  have hname : ∀ name ∈ optionalNames,
      headerNumber name (.object o) = headerNumber name (.object o') :=
    fun name hn => headerNumber_congr (hnumber name hn)
  simp only [optionalNames, List.forall_mem_cons] at hname
  simp only [optionalOf, subsystemOf_congr h, hmagic, hsum, hdata, hname]

/-! ## Directories, sections and resources -/

theorem textAt?_congr {key : String} (h : o.get? key = o'.get? key) (path : List String) :
    Field.textAt? key path o = Field.textAt? key path o' := by
  cases path <;> simp only [Field.textAt?, Field.follow?, h]

theorem realAt?_congr {key : String} (h : o.get? key = o'.get? key) :
    Field.realAt? key o = Field.realAt? key o' := by
  simp only [Field.realAt?, h]

theorem directoryOf?_congr (h : Alike directoryNumbers [] o o') :
    directoryOf? (.object o) = directoryOf? (.object o') := by
  have haddress : Field.directoryAddress.Agrees o o' :=
    (h.number _ (by simp [directoryNumbers])).numeric
  have hsize : Field.directorySize.Agrees o o' :=
    (h.number _ (by simp [directoryNumbers])).numeric
  have hother : ∀ key ∈ ["index", "name"], o.get? key = o'.get? key := by
    have hkeys : ∀ key ∈ ["index", "name"], ∀ ks ∈ directoryNumbers, key ∉ ks := by decide
    exact fun key hk => h.other key (hkeys key hk) nofun
  simp only [List.forall_mem_cons] at hother
  have hindex : Field.directoryIndex.Agrees o o' := by
    apply Field.Spec.agrees_of_forall
    simp [Field.directoryIndex, Field.decimalAt?, hother]
  have hname : Field.directoryName.Agrees o o' := by
    apply Field.Spec.agrees_of_forall
    simp [Field.directoryName, Field.named, textAt?_congr hother.2.1]
  simp only [directoryOf?, directoryNameOf, haddress, hsize, hindex, hname]

theorem resourceOf?_congr (h : Alike resourceNumbers [] o o') :
    resourceOf? (.object o) = resourceOf? (.object o') := by
  have hsize : Field.resourceSize.Agrees o o' :=
    (h.number _ (by simp [resourceNumbers])).numeric
  have hother : ∀ key ∈ ["type", "language", "entropy", "hash", "sha256", "md5"],
      o.get? key = o'.get? key := by
    have hkeys : ∀ key ∈ ["type", "language", "entropy", "hash", "sha256", "md5"],
        ∀ ks ∈ resourceNumbers, key ∉ ks := by decide
    exact fun key hk => h.other key (hkeys key hk) nofun
  simp only [List.forall_mem_cons] at hother
  obtain ⟨htype, hlanguage, hentropy, hhash, hsha, hmd, -⟩ := hother
  have hkind : Field.resourceType.Agrees o o' := by
    apply Field.Spec.agrees_of_forall
    simp [Field.resourceType, Field.named, textAt?_congr htype]
  have htongue : Field.resourceLanguage.Agrees o o' := by
    apply Field.Spec.agrees_of_forall
    simp [Field.resourceLanguage, textAt?_congr hlanguage, Field.nestedAt?, Field.follow?,
      hlanguage]
  have hreal : Field.resourceEntropy.Agrees o o' := by
    apply Field.Spec.agrees_of_forall
    simp [Field.resourceEntropy, Field.real, realAt?_congr hentropy]
  have hdigest : Field.resourceHash.Agrees o o' := by
    apply Field.Spec.agrees_of_forall
    simp [Field.resourceHash, Field.named, textAt?_congr hhash, textAt?_congr hsha,
      textAt?_congr hmd]
  simp only [resourceOf?, hsize, hkind, htongue, hreal, hdigest]

theorem nestedAt?_info_congr {inner : String} (hi : (inner, SamePlain) ∈ infoParts)
    (h : Option.Rel (SameRecord (Alike [] infoParts)) (o.get? "info") (o'.get? "info")) :
    Field.nestedAt? "info" [inner] o = Field.nestedAt? "info" [inner] o' := by
  rw [Field.nestedAt?, Field.nestedAt?, Field.follow?_pair, Field.follow?_pair]
  generalize o.get? "info" = x, o'.get? "info" = x' at h
  cases h with
  | none => rfl
  | some h =>
    cases h with
    | same v => rfl
    | @object i i' h =>
      show (i.get? inner).bind Field.natural? = (i'.get? inner).bind Field.natural?
      have hpart : Option.Rel SamePlain (i.get? inner) (i'.get? inner) := h.part _ hi
      generalize i.get? inner = y, i'.get? inner = y' at hpart
      cases hpart with
      | none => rfl
      | some hv => exact hv.natural?

theorem textAt?_info_congr
    (h : Option.Rel (SameRecord (Alike [] infoParts)) (o.get? "info") (o'.get? "info")) :
    Field.textAt? "info" ["name"] o = Field.textAt? "info" ["name"] o' := by
  have hfollow : Field.follow? o "info" ["name"] = Field.follow? o' "info" ["name"] := by
    rw [Field.follow?_pair, Field.follow?_pair]
    generalize o.get? "info" = x, o'.get? "info" = x' at h
    cases h with
    | none => rfl
    | some h =>
      cases h with
      | same v => rfl
      | object h => exact h.other "name" nofun (by simp [infoParts])
  simp only [Field.textAt?, hfollow]

theorem sectionOf?_congr
    (h : Alike sectionNumbers [("info", SameRecord (Alike [] infoParts))] o o') :
    sectionOf? (.object o) = sectionOf? (.object o') := by
  have hinfo : Option.Rel (SameRecord (Alike [] infoParts)) (o.get? "info") (o'.get? "info") :=
    h.part _ List.mem_cons_self
  have hother : ∀ key ∈ ["name", "entropy", "chi_square", "chiSquared", "chiSquare"],
      o.get? key = o'.get? key := by
    have hkeys : ∀ key ∈ ["name", "entropy", "chi_square", "chiSquared", "chiSquare"],
        key ≠ "info" ∧ ∀ ks ∈ sectionNumbers, key ∉ ks := by decide
    intro key hk
    apply h.other key (hkeys key hk).2
    simpa using (hkeys key hk).1
  simp only [List.forall_mem_cons] at hother
  obtain ⟨hname, hentropy, hchi, hchi', hchi'', -⟩ := hother
  have htitle : Field.sectionName.Agrees o o' := by
    apply Field.Spec.agrees_of_forall
    simp [Field.sectionName, Field.named, textAt?_congr hname, textAt?_info_congr hinfo]
  have hnumber : ∀ name aliases inner, keys name aliases ∈ sectionNumbers →
      (inner, SamePlain) ∈ infoParts → (Field.numericOr name aliases "info" inner).Agrees o o' :=
    fun _ _ _ hkeys hi => (h.number _ hkeys).numericOr (nestedAt?_info_congr hi hinfo)
  have haddress : Field.sectionAddress.Agrees o o' :=
    hnumber _ _ _ (by simp [sectionNumbers]) (by simp [infoParts])
  have hvirtual : Field.sectionVirtualSize.Agrees o o' :=
    hnumber _ _ _ (by simp [sectionNumbers]) (by simp [infoParts])
  have hraw : Field.sectionRawSize.Agrees o o' :=
    hnumber _ _ _ (by simp [sectionNumbers]) (by simp [infoParts])
  have hbits : Field.sectionCharacteristics.Agrees o o' :=
    hnumber _ _ _ (by simp [sectionNumbers]) (by simp [infoParts])
  have hreal : Field.sectionEntropy.Agrees o o' := by
    apply Field.Spec.agrees_of_forall
    simp [Field.sectionEntropy, Field.real, realAt?_congr hentropy]
  have hsquare : Field.sectionChiSquare.Agrees o o' := by
    apply Field.Spec.agrees_of_forall
    simp [Field.sectionChiSquare, Field.real, realAt?_congr hchi, realAt?_congr hchi',
      realAt?_congr hchi'']
  simp only [sectionOf?, htitle, haddress, hvirtual, hraw, hbits, hreal, hsquare]

/-! ## Parts of a payload -/

theorem objectOrNone_congr {α : Type} {f : Value → α} {alike : Fields → Fields → Prop}
    (hf : ∀ o o', alike o o' → f (.object o) = f (.object o')) (h : SameRecord alike v v') :
    objectOrNone f v = objectOrNone f v' := by
  cases h with
  | same v => rfl
  | object h => exact congrArg some (hf _ _ h)

theorem sameRecord_congr {α : Type} {f : Value → α} {alike : Fields → Fields → Prop}
    (hf : ∀ o o', alike o o' → f (.object o) = f (.object o')) (h : SameRecord alike v v') :
    f v = f v' := by
  cases h with
  | same v => rfl
  | object h => exact hf _ _ h

theorem map_items_congr {α : Type} {f : Value → α} {alike : Value → Value → Prop}
    {vs vs' : List Value} (hf : ∀ v v', alike v v' → f v = f v') (h : List.Forall₂ alike vs vs') :
    vs.map f = vs'.map f := by
  induction h with
  | nil => rfl
  | cons h _ ih => rw [List.map_cons, List.map_cons, hf _ _ h, ih]

theorem sectionsOf_congr (h : SameList SameSection v v') : sectionsOf v = sectionsOf v' := by
  cases h with
  | same v => rfl
  | list h =>
    apply map_items_congr _ h
    intro v v' hv
    rw [sectionOf, sectionOf, sameRecord_congr (fun _ _ => sectionOf?_congr) hv]

theorem directoriesOf_congr (h : SameList SameDirectory v v') :
    directoriesOf v = directoriesOf v' := by
  cases h with
  | same v => rfl
  | @list vs vs' h =>
    have hmap : vs.map directoryOf? = vs'.map directoryOf? :=
      map_items_congr (fun _ _ => sameRecord_congr fun _ _ => directoryOf?_congr) h
    have hid : ∀ vs : List Value,
        vs.filterMap directoryOf? = (vs.map directoryOf?).filterMap id := by
      intro vs
      rw [List.filterMap_map, Function.id_comp]
    rw [directoriesOf, directoriesOf, hid, hid, hmap]

theorem resourcesOf_congr (h : SameList SameResource v v') : resourcesOf v = resourcesOf v' := by
  cases h with
  | same v => rfl
  | @list vs vs' h =>
    have hmap : vs.map resourceOf? = vs'.map resourceOf? :=
      map_items_congr (fun _ _ => sameRecord_congr fun _ _ => resourceOf?_congr) h
    have hid : ∀ vs : List Value, vs.mapM resourceOf? = (vs.map resourceOf?).mapM id := by
      intro vs
      rw [List.mapM_map, Function.id_comp]
    rw [resourcesOf, resourcesOf, hid, hid, hmap]

theorem sameOrNull {R : Value → Value → Prop} {key : String} (hn : R .null .null)
    (h : Option.Rel R (o.get? key) (o'.get? key)) : R (fieldOrNull o key) (fieldOrNull o' key) := by
  rw [fieldOrNull, fieldOrNull]
  generalize o.get? key = x, o'.get? key = x' at h
  cases h with
  | none => exact hn
  | some h => exact h

/-! ## Whole payloads -/

def Analysis.withoutPayload (a : Analysis) : Analysis := { a with payload := none }

theorem assemble_withoutPayload (o : Fields) (parts : Parts) (fileSize : Option Int) :
    (Analysis.assemble o parts fileSize).map Analysis.withoutPayload =
      Analysis.assemble o { parts with payload := none } fileSize := by
  simp only [Analysis.assemble]
  cases importsOf (fieldOrNull o "imports") with
  | error e => rfl
  | ok imports =>
    cases resourcesOf (fieldOrNull o "resources") with
    | error e => rfl
    | ok resources =>
      cases (objectOrNone optionalOf parts.optional).mapM id <;> rfl

theorem machineType_congr (h : o.get? "machine_type" = o'.get? "machine_type")
    (h' : o.get? "machineType" = o'.get? "machineType") : Field.machineType.Agrees o o' := by
  apply Field.Spec.agrees_of_forall
  simp [Field.machineType, Field.named, textAt?_congr h, textAt?_congr h']

theorem timestamp_congr (h : o.get? "timestamp" = o'.get? "timestamp") :
    Field.timestamp.Agrees o o' := by
  apply Field.Spec.agrees_of_forall
  simp [Field.timestamp, Field.named, textAt?_congr h]

theorem errorOf_congr (h : o.get? "error" = o'.get? "error") : errorOf o = errorOf o' := by
  rw [errorOf, errorOf, h]

theorem fieldOrNull_congr {key : String} (h : o.get? key = o'.get? key) :
    fieldOrNull o key = fieldOrNull o' key := by
  rw [fieldOrNull, fieldOrNull, h]

/-- Parts that are related to each other one by one. -/
structure SameParts (parts parts' : Parts) : Prop where
  dos : SameDos parts.dos parts'.dos
  file : SameFile parts.file parts'.file
  optional : SameOptional parts.optional parts'.optional
  directories : SameList SameDirectory parts.directories parts'.directories

theorem assemble_congr {parts parts' : Parts} (h : SamePayload o o') (hp : SameParts parts parts')
    (fileSize : Option Int) :
    (Analysis.assemble o parts fileSize).map Analysis.withoutPayload =
      (Analysis.assemble o' parts' fileSize).map Analysis.withoutPayload := by
  have hdos : objectOrNone dosOf parts.dos = objectOrNone dosOf parts'.dos :=
    objectOrNone_congr (fun _ _ => dosOf_congr) hp.dos
  have hfile : objectOrNone fileOf parts.file = objectOrNone fileOf parts'.file :=
    objectOrNone_congr (fun _ _ => fileOf_congr) hp.file
  have hoptional :
      objectOrNone optionalOf parts.optional = objectOrNone optionalOf parts'.optional :=
    objectOrNone_congr (fun _ _ => optionalOf_congr) hp.optional
  have hdirectories : directoriesOf parts.directories = directoriesOf parts'.directories :=
    directoriesOf_congr hp.directories
  have hsections : sectionsOf (fieldOrNull o "sections") = sectionsOf (fieldOrNull o' "sections") :=
    sectionsOf_congr (sameOrNull (.same _) (h.part ("sections", _) (by simp [payloadParts])))
  have hresources : resourcesOf (fieldOrNull o "resources") =
      resourcesOf (fieldOrNull o' "resources") :=
    resourcesOf_congr (sameOrNull (.same _) (h.part ("resources", _) (by simp [payloadParts])))
  have hsize : Field.fileSize.Agrees o o' :=
    (h.number _ List.mem_cons_self).numeric
  have hother : ∀ key ∈ ["imports", "machine_type", "machineType", "timestamp", "error"],
      o.get? key = o'.get? key := by
    have hkeys : ∀ key ∈ ["imports", "machine_type", "machineType", "timestamp", "error"],
        key ∉ payloadParts.map Prod.fst ∧ ∀ ks ∈ [keys "file_size" []], key ∉ ks := by decide
    intro key hk
    apply h.other key (hkeys key hk).2
    rintro p hp rfl
    exact (hkeys _ hk).1 (List.mem_map_of_mem hp)
  simp only [List.forall_mem_cons] at hother
  obtain ⟨himports, hmachine, hmachine', htimestamp, herror, -⟩ := hother
  have hname : Field.machineType.Agrees o o' := machineType_congr hmachine hmachine'
  have htime : Field.timestamp.Agrees o o' := timestamp_congr htimestamp
  have hfault : errorOf o = errorOf o' := errorOf_congr herror
  have hlibraries : fieldOrNull o "imports" = fieldOrNull o' "imports" :=
    fieldOrNull_congr himports
  rw [assemble_withoutPayload, assemble_withoutPayload]
  simp only [Analysis.assemble, hdos, hfile, hoptional, hdirectories, hsections, hresources, hsize,
    hname, htime, hfault, hlibraries]

theorem ofPrinted_congr (h : SamePayload o o') :
    (Analysis.ofPrinted o).map Analysis.withoutPayload =
      (Analysis.ofPrinted o').map Analysis.withoutPayload := by
  apply assemble_congr h
  exact {
    dos := sameOrNull (.same _) (h.part ("dos_header", SameDos) (by simp [payloadParts]))
    file := sameOrNull (.same _) (h.part ("file_header", SameFile) (by simp [payloadParts]))
    optional :=
      sameOrNull (.same _) (h.part ("optional_header", SameOptional) (by simp [payloadParts]))
    directories := sameOrNull (.same _)
      (h.part ("data_directories", SameList SameDirectory) (by simp [payloadParts])) }

def headerFields (o : Fields) : Fields := ((o.get? "header").bind Value.fields?).getD []

theorem sameHeader_refl (o : Fields) : Alike [] headerParts o o where
  number := List.forall_mem_nil _
  part := by
    have hrel : ∀ {R : Value → Value → Prop}, (∀ v, R v v) →
        ∀ x : Option Value, Option.Rel R x x := by
      intro R hR x
      cases x with
      | none => exact .none
      | some v => exact .some (hR v)
    simp only [headerParts, List.forall_mem_cons]
    exact ⟨hrel .same _, hrel .same _, hrel .same _, hrel .same _, hrel .same _,
      List.forall_mem_nil _⟩
  other := fun _ _ _ => rfl

theorem headerFields_congr (h : SamePayload o o') :
    Alike [] headerParts (headerFields o) (headerFields o') ∧ isPayload o = isPayload o' := by
  have hheader : Option.Rel (SameRecord (Alike [] headerParts)) (o.get? "header")
      (o'.get? "header") := h.part _ List.mem_cons_self
  rw [headerFields, headerFields, isPayload, isPayload]
  generalize o.get? "header" = x, o'.get? "header" = x' at hheader
  cases hheader with
  | none => exact ⟨sameHeader_refl [], rfl⟩
  | some hv =>
    cases hv with
    | same v => exact ⟨sameHeader_refl _, rfl⟩
    | object hh => exact ⟨hh, rfl⟩

theorem ofPayload_congr (h : SamePayload o o') (fileSize : Option Int) :
    (Analysis.ofPayload o fileSize).map Analysis.withoutPayload =
      (Analysis.ofPayload o' fileSize).map Analysis.withoutPayload := by
  have hh := (headerFields_congr h).1
  apply assemble_congr h
  have hlater : SameList SameDirectory (fieldOrNull (headerFields o) "data_directories")
      (fieldOrNull (headerFields o') "data_directories") :=
    sameOrNull (.same _)
      (hh.part ("data_directories", SameList SameDirectory) (by simp [headerParts]))
  exact {
    dos := sameOrNull (.same _) (hh.part ("dos", SameDos) (by simp [headerParts]))
    file := sameOrNull (.same _) (hh.part ("file", SameFile) (by simp [headerParts]))
    optional := sameOrNull (.same _) (hh.part ("optional", SameOptional) (by simp [headerParts]))
    directories := by
      have hfirst := hh.part ("dataDirectories", SameList SameDirectory) (by simp [headerParts])
      show SameList SameDirectory (((headerFields o).get? "dataDirectories").getD _)
        (((headerFields o').get? "dataDirectories").getD _)
      generalize (headerFields o).get? "dataDirectories" = x,
        (headerFields o').get? "dataDirectories" = x' at hfirst
      cases hfirst with
      | none => exact hlater
      | some hv => exact hv }

/-- Raw results that are payloads with the same numbers. -/
inductive Raw.Same : Raw → Raw → Prop
  | value {o o' : Fields} (h : SamePayload o o') : Same (.value (.object o)) (.value (.object o'))
  | tagged {o o' : Fields} (h : SamePayload o o') (fileSize : Option Int) :
      Same (.tagged (.object o) fileSize) (.tagged (.object o') fileSize)

/-- Payloads of either shape that differ in how and where their numbers are written are normalized
alike, or fail alike; only the payload that is kept with the analysis differs. -/
theorem normalize_encodings {raw raw' : Raw} (h : raw.Same raw') :
    (normalize raw).map Analysis.withoutPayload = (normalize raw').map Analysis.withoutPayload := by
  cases h with
  | value h =>
    simp only [normalize, Analysis.ofValue, (headerFields_congr h).2]
    split
    · exact ofPayload_congr h none
    · exact ofPrinted_congr h
  | tagged h fileSize => exact ofPayload_congr h fileSize

/-! A machine as a plain number and in capitals between blanks, under its name and under its code,
and a size as a text and in an object. -/

def plainFile : Fields := [("machine", .int 332)]
def plainSection : Fields := [("name", .str ".text"), ("raw_size", .str "512")]
def capitalFile : Fields := plainFile.rewrite "machine" "machine_code" (.str " 0X014C ")
def nestedSection : Fields := plainSection.rewrite "raw_size" "sizeOfRawData"
  (.object [("hex", .str "0x200"), ("decimal", .int 512)])

def payloadOf (file entry : Fields) : Fields := [
  ("header", .object [("file", .object file)]), ("sections", .list [.object entry])]

theorem capitalFile_alike : Alike fileNumbers [] plainFile capitalFile := by
  have hwritten : Number.Written 332 (Text.trim " 0X014C ".toList) := by
    have htrim : Text.trim " 0X014C ".toList = '0' :: 'X' :: ['0', '1', '4', 'C'] := by decide
    rw [htrim]
    exact .hex 'X' (.inr rfl)
      ⟨by decide, [0, 1, 4, 12], .cons rfl (.cons rfl (.cons rfl (.cons rfl .nil))), by decide⟩
  have halone : ∀ j ∈ keys "machine_code" ["machine"], j ≠ "machine" →
      (plainFile.get? j).isNone = true := by decide
  apply Alike.rewrite List.mem_cons_self (by decide) (by decide) rfl (.plain .number)
    (.plain (.text hwritten)) (fun _ => rfl)
  · exact fun j hj hne => Field.numberless_of_isNone (halone j hj hne)
  · decide
  · nofun

theorem nestedSection_alike : Alike sectionNumbers [("info", SameRecord (Alike [] infoParts))]
    plainSection nestedSection := by
  have hdecimal : Field.Encodes 512 (.str "512") :=
    Field.encodes_decimal (by decide : Number.decimalLength (512 : Nat) ≤ _)
  have hhex : Field.Encodes 512 (.str "0x200") := Field.encodes_hexPadded 0 512
  have hnested : Field.Holds 512 (.object [("hex", .str "0x200"), ("decimal", .int 512)]) := by
    refine .inside ⟨"hex", by decide, by simp [Keyed.get?]⟩ ?_
    simp only [Field.innerKeys, List.forall_mem_cons]
    refine ⟨?_, ?_, ?_, fun _ h => absurd h List.not_mem_nil⟩
    · rintro v ⟨⟩
      exact .number
    · rintro v ⟨⟩
      exact hhex
    · intro v h
      cases h
  have halone : ∀ j ∈ keys "raw_size" ["size_of_raw_data", "sizeOfRawData"], j ≠ "raw_size" →
      (plainSection.get? j).isNone = true := by decide
  have hks : keys "raw_size" ["size_of_raw_data", "sizeOfRawData"] ∈ sectionNumbers := by
    simp [sectionNumbers]
  apply Alike.rewrite hks (by decide) (by decide) rfl (.plain hdecimal) hnested (fun _ => rfl)
  · exact fun j hj hne => Field.numberless_of_isNone (halone j hj hne)
  · decide
  · simp only [List.forall_mem_cons]
    exact ⟨⟨by decide, by decide, .same⟩, fun _ h => absurd h List.not_mem_nil⟩

theorem payloadOf_same {file file' entry entry' : Fields} (hf : Alike fileNumbers [] file file')
    (hs : Alike sectionNumbers [("info", SameRecord (Alike [] infoParts))] entry entry') :
    SamePayload (payloadOf file entry) (payloadOf file' entry') := by
  have hheader : Alike [] headerParts [("file", .object file)] [("file", .object file')] := {
    number := List.forall_mem_nil _
    part := by
      simp only [headerParts, List.forall_mem_cons]
      exact ⟨.none, .some (.object hf), .none, .none, .none, List.forall_mem_nil _⟩
    other := by
      intro key _ hkey
      have hne : "file" ≠ key := (hkey ("file", SameFile) (by simp [headerParts])).symm
      simp only [Keyed.get?, Text.ofString_inj, if_neg hne] }
  exact {
    number := by
      have hkeys : ∀ k ∈ keys "file_size" [], "header" ≠ k ∧ "sections" ≠ k := by decide
      rw [List.forall_mem_singleton]
      refine .same fun k hk => ?_
      simp only [payloadOf, Keyed.get?, Text.ofString_inj, if_neg (hkeys k hk).1,
        if_neg (hkeys k hk).2]
    part := by
      simp only [payloadParts, List.forall_mem_cons]
      exact ⟨.some (.object hheader), .some (.list (.cons (.object hs) .nil)), .none, .none, .none,
        .none, .none, List.forall_mem_nil _⟩
    other := by
      intro key _ hkey
      have hne : "header" ≠ key := (hkey _ List.mem_cons_self).symm
      have hne' : "sections" ≠ key :=
        (hkey ("sections", SameList SameSection) (by simp [payloadParts])).symm
      simp only [payloadOf, Keyed.get?, Text.ofString_inj, if_neg hne, if_neg hne'] }

theorem normalize_encodings_moved :
    Raw.Same (.tagged (.object (payloadOf plainFile plainSection)) (some 4096))
      (.tagged (.object (payloadOf capitalFile nestedSection)) (some 4096)) ∧
    (normalize (.tagged (.object (payloadOf plainFile plainSection)) (some 4096))).map
        Analysis.withoutPayload =
      (normalize (.tagged (.object (payloadOf capitalFile nestedSection)) (some 4096))).map
        Analysis.withoutPayload := by
  have h : SamePayload (payloadOf plainFile plainSection) (payloadOf capitalFile nestedSection) :=
    payloadOf_same capitalFile_alike nestedSection_alike
  exact ⟨.tagged h _, normalize_encodings (.tagged h _)⟩

end PETriage.Report
