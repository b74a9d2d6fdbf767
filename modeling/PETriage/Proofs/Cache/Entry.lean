import PETriage.Cache.Disk
import PETriage.Proofs.Files.Resolution
import PETriage.Proofs.Gzip.Stored
import PETriage.Proofs.Json.RoundTrip
import PETriage.Proofs.Text.Written

/-!
# Entries of the cache on disk

An entry holds the essential part of an analysis in a wrapper with the version of the format. Its
bytes are read as the same wrapper. A key of letters and digits, in lower case, is the name of
the entry's file up to the suffix, so entries of different keys stand at different places.
-/
namespace PETriage

open Report (Analysis SectionEntry)
open Number (Writable)
open Text (Ascii)

/-! ## Contents -/

/-- What is stored of a section can be read back: its name has no single units, and its numbers
are not too long to be written. -/
structure Report.SectionEntry.Storable (s : SectionEntry) : Prop where
  name : s.name.IsWhole
  virtualSize : Writable s.virtualSize
  rawSize : Writable s.rawSize

instance (n : Int) : Decidable (Writable n) := inferInstanceAs (Decidable (_ ≤ _))

instance (s : SectionEntry) : Decidable s.Storable :=
  decidable_of_iff (s.name.IsWhole ∧ Writable s.virtualSize ∧ Writable s.rawSize)
    ⟨fun ⟨h1, h2, h3⟩ => ⟨h1, h2, h3⟩, fun ⟨h1, h2, h3⟩ => ⟨h1, h2, h3⟩⟩

structure Report.Analysis.Storable (a : Analysis) : Prop where
  fileSize : Writable a.fileSize
  machine : a.machine.IsWhole
  timestamp : a.timestamp.IsWhole
  sections : ∀ s ∈ a.sections, s.Storable

instance (a : Analysis) : Decidable a.Storable :=
  decidable_of_iff (Writable a.fileSize ∧ a.machine.IsWhole ∧ a.timestamp.IsWhole ∧
      ∀ s ∈ a.sections, s.Storable)
    ⟨fun ⟨h1, h2, h3, h4⟩ => ⟨h1, h2, h3, h4⟩, fun ⟨h1, h2, h3, h4⟩ => ⟨h1, h2, h3, h4⟩⟩

namespace Cache.Disk

open Json (Restorable)

variable {a : Analysis} {v : Value} {depth : Nat} {key : String}

theorem restorable_object {fields : Fields} (names : List String)
    (hnames : fields.map Prod.fst = names.map Text.ofString) (hk : names.Nodup)
    (hv : ∀ f ∈ fields, Restorable depth f.2) : Restorable (depth + 1) (.object fields) := by
  refine .object ?_ ?_ hv
  · rw [hnames]
    exact List.pairwise_map.2 (hk.imp fun hne => Text.ofString_inj.not.2 hne)
  · intro f hf
    obtain ⟨name, -, hname⟩ := List.mem_map.1 (hnames ▸ List.mem_map_of_mem hf)
    rw [← hname]
    exact Text.isWhole_ofString name

theorem restorable_essentialSection {s : SectionEntry} (h : s.Storable) :
    Restorable (depth + 1) (Analysis.essentialSection s) := by
  apply restorable_object ["name", "virtual_address", "virtual_size", "raw_size", "entropy"] rfl
  · decide
  · simp only [List.forall_mem_cons]
    exact ⟨.str h.name, .str (Text.isWhole_ofString _), .int h.virtualSize, .int h.rawSize,
      .str (Text.isWhole_ofString _), List.forall_mem_nil _⟩

theorem restorable_essential (h : a.Storable) : Restorable (depth + 3) a.essential := by
  apply restorable_object ["file_size", "machine_type", "timestamp", "sections"] rfl
  · decide
  · simp only [Analysis.essentialFields, List.forall_mem_cons]
    refine ⟨.int h.fileSize, .str h.machine, .str h.timestamp, .list ?_, List.forall_mem_nil _⟩
    intro v hv
    obtain ⟨s, hs, rfl⟩ := List.mem_map.1 hv
    exact restorable_essentialSection (h.sections s hs)

/-- The wrapper around what is stored. -/
def wrap (v : Value) : Value := .object [("format_version", .nat formatVersion), ("result", v)]

theorem restorable_wrap (h : Restorable depth v) : Restorable (depth + 1) (wrap v) := by
  apply restorable_object ["format_version", "result"] rfl
  · decide
  · simp only [List.forall_mem_cons]
    exact ⟨.int (show Number.decimalLength 1 ≤ 4300 by decide), h, List.forall_mem_nil _⟩

theorem currentResult?_wrap (v : Value) : currentResult? (wrap v) = some v := rfl

/-- What was written is read as the same wrapper, through the text and through the bytes. -/
theorem wrapped_readsBack (h : a.Storable) :
    (∃ text, Json.compact? (wrapped a) = .ok text ∧
      Json.read ⟨some Number.decimalDigitLimit, some depthLimit⟩ text = .ok (wrapped a)) ∧
    ∃ b, entryBytes a = .ok b ∧ entryValue b = .ok (wrapped a) := by
  have hr : Restorable depthLimit (wrapped a) := restorable_wrap (restorable_essential h)
  have hread := Json.read_compact hr
  have htext : Json.compact? (wrapped a) = .ok (Json.compact (wrapped a)) :=
    if_pos (Json.isWritable_of_restorable hr)
  refine ⟨⟨_, htext, hread⟩, _, by rw [entryBytes, htext]; rfl, ?_⟩
  rw [entryValue, Bytes.toList_ofList, Gzip.decompress_compress]
  simp only [Text.Utf8.decode?_encode, String.ofList_toList]
  rw [Json.limitsAt] at hread
  rw [hread]

/-! ## Places -/

/-- A key of letters and digits. -/
structure IsKey (key : String) : Prop where
  ne_empty : key ≠ ""
  plain : ∀ c ∈ key.toList, c.isAlphanum = true

instance (key : String) : Decidable (IsKey key) :=
  decidable_of_iff (key ≠ "" ∧ key.toList.all Char.isAlphanum = true)
    ⟨fun ⟨h1, h2⟩ => ⟨h1, List.all_eq_true.1 h2⟩, fun ⟨h1, h2⟩ => ⟨h1, List.all_eq_true.2 h2⟩⟩

/-- The names under which an entry stands, given its key in lower case. -/
def folderName (key : String) : String := String.ofList (key.toList.take 2)
def entryName (key : String) : String := key ++ entrySuffix

theorem isKey_normalKey (h : IsKey key) : IsKey (normalKey key) := by
  have hascii : Ascii key.toList := fun c hc => Text.toNat_lt_of_isAlphanum (h.plain c hc)
  have hlower := Text.toList_lowerText hascii
  constructor
  · intro hempty
    rw [normalKey] at hempty
    rw [hempty] at hlower
    exact h.ne_empty (String.toList_eq_nil_iff.1 (List.map_eq_nil_iff.1 hlower.symm))
  · intro c hc
    rw [normalKey, hlower] at hc
    obtain ⟨d, hd, rfl⟩ := List.mem_map.1 hc
    exact Text.isAlphanum_toLower (h.plain d hd)

theorem isName_of_plain {s : String} {c : Char} {cs : List Char} (hs : s.toList = c :: cs)
    (hc : c.isAlphanum = true) (hcs : ∀ d ∈ cs, d.isAlphanum = true ∨ d = '.') :
    Files.IsName s := by
  have hfirst : ∀ {t : String} {d : Char} {ds : List Char}, t.toList = d :: ds →
      d.isAlphanum = false → s ≠ t := by
    rintro t d ds ht hd rfl
    obtain ⟨rfl, -⟩ := List.cons.inj (hs.symm.trans ht)
    rw [hc] at hd
    cases hd
  constructor
  · intro d hd
    have hd : d.isAlphanum = true ∨ d = '.' := by
      rw [hs] at hd
      rcases List.mem_cons.1 hd with rfl | hd
      · exact .inl hc
      · exact hcs d hd
    rcases hd with hd | rfl
    · constructor
      · rintro rfl
        exact absurd hd (by decide)
      · rintro rfl
        exact absurd hd (by decide)
    · decide
  · rintro rfl
    cases hs
  · exact hfirst rfl (by decide)
  · exact hfirst rfl (by decide)

theorem exists_toList_of_isKey (h : IsKey key) : ∃ c cs, key.toList = c :: cs ∧
    c.isAlphanum = true ∧ ∀ d ∈ cs, d.isAlphanum = true := by
  have hplain := h.plain
  cases hkey : key.toList with
  | nil => exact absurd (String.toList_eq_nil_iff.1 hkey) h.ne_empty
  | cons c cs =>
    rw [hkey, List.forall_mem_cons] at hplain
    exact ⟨c, cs, rfl, hplain⟩

theorem isName_folderName (h : IsKey key) : Files.IsName (folderName key) := by
  obtain ⟨c, cs, hkey, hc, hcs⟩ := exists_toList_of_isKey h
  have hlist : (folderName key).toList = c :: cs.take 1 := by
    rw [folderName, String.toList_ofList, hkey]
    rfl
  exact isName_of_plain hlist hc fun d hd => .inl (hcs d (List.mem_of_mem_take hd))

theorem isName_append {suffix : String} (h : IsKey key)
    (hs : suffix.toList.all (fun d => d.isAlphanum || d == '.') = true) :
    Files.IsName (key ++ suffix) := by
  obtain ⟨c, cs, hkey, hc, hcs⟩ := exists_toList_of_isKey h
  have hlist : (key ++ suffix).toList = c :: (cs ++ suffix.toList) := by
    rw [String.toList_append, hkey, List.cons_append]
  apply isName_of_plain hlist hc
  intro d hd
  rcases List.mem_append.1 hd with hd | hd
  · exact .inl (hcs d hd)
  · simpa using List.all_eq_true.1 hs d hd

theorem isName_entryName (h : IsKey key) : Files.IsName (entryName key) :=
  isName_append h (by decide)

theorem isName_temporary (h : IsKey key) : Files.IsName (key ++ temporarySuffix) :=
  isName_append h (by decide)

theorem entryName_injective {other : String} (h : entryName key = entryName other) :
    key = other := by
  have hlist := congrArg String.toList h
  rw [entryName, entryName, String.toList_append, String.toList_append] at hlist
  exact String.toList_inj.1 (List.append_cancel_right hlist)

theorem isEntryName_entryName (key : String) : isEntryName (entryName key) = true := by
  rw [isEntryName, List.isSuffixOf_iff_suffix, entryName, String.toList_append]
  exact List.suffix_append _ _

theorem temporary_ne_entryName (key other : String) : key ++ temporarySuffix ≠ entryName other := by
  intro h
  have hlast := congrArg (·.toList.getLast?) h
  simp only [entryName, String.toList_append] at hlast
  rw [List.getLast?_append_of_ne_nil _ (by decide),
    List.getLast?_append_of_ne_nil _ (by decide)] at hlast
  exact absurd hlast (by decide)

variable {root : Files.Path}

theorem entryPath_eq (root : Files.Path) (h : IsKey (normalKey key)) :
    entryPath root key = root.below [folderName (normalKey key), entryName (normalKey key)] := by
  have hfolder := root.join_of_isName (isName_folderName h)
  have hentry := (root.below [folderName (normalKey key)]).join_of_isName (isName_entryName h)
  rw [Files.Path.below_below] at hentry
  show (root.join (.ofText (folderName (normalKey key)))).join
    (.ofText (entryName (normalKey key))) = _
  rw [hfolder, hentry]
  rfl

theorem temporaryName_entryName (key : String) :
    temporaryName (entryName key) = key ++ temporarySuffix := by
  have hlength : (entryName key).length - entrySuffix.length = key.toList.length := by
    rw [entryName, String.length_append, Nat.add_sub_cancel, String.length_toList]
  rw [temporaryName, hlength, entryName, String.toList_append, List.take_left, String.ofList_toList]

theorem temporaryPath_below (root : Files.Path) (folder key : String) :
    temporaryPath (root.below [folder, entryName key]) =
      root.below [folder, key ++ temporarySuffix] := by
  have hname : (root.below [folder, entryName key]).name = entryName key := by
    simp [Files.Path.name, Files.Path.below]
  have hparent : (root.parts ++ [folder, entryName key]).dropLast = root.parts ++ [folder] := by
    rw [List.dropLast_append_of_ne_nil (by simp)]
    rfl
  rw [temporaryPath, hname, temporaryName_entryName, Files.Path.withName]
  simp only [Files.Path.below, hparent, List.append_assoc, List.singleton_append]

theorem parent_below (root : Files.Path) (folder name : String) :
    (root.below [folder, name]).parent = root.below [folder] := by
  have hparent : (root.parts ++ [folder, name]).dropLast = root.parts ++ [folder] := by
    rw [List.dropLast_append_of_ne_nil (by simp)]
    rfl
  rw [Files.Path.parent]
  simp only [Files.Path.below, hparent]

/-- A key of letters and digits for which an entry can stand below a root, the name under which it
is written first being the longest one that is needed. -/
structure Usable (root : Files.Path) (key : String) : Prop where
  letters : IsKey key
  name : (temporaryPath (entryPath root key)).name.utf8ByteSize ≤ Files.Tree.nameLimit
  path : (temporaryPath (entryPath root key)).text.utf8ByteSize < Files.Tree.pathLimit

instance (root : Files.Path) (key : String) : Decidable (Usable root key) :=
  decidable_of_iff (IsKey key ∧
      (temporaryPath (entryPath root key)).name.utf8ByteSize ≤ Files.Tree.nameLimit ∧
      (temporaryPath (entryPath root key)).text.utf8ByteSize < Files.Tree.pathLimit)
    ⟨fun ⟨h1, h2, h3⟩ => ⟨h1, h2, h3⟩, fun ⟨h1, h2, h3⟩ => ⟨h1, h2, h3⟩⟩

/-- What a usable key gives for the key in lower case. -/
structure Fits (root : Files.Path) (key : String) : Prop where
  letters : IsKey key
  folder : (folderName key).utf8ByteSize ≤ Files.Tree.nameLimit
  entry : (entryName key).utf8ByteSize ≤ Files.Tree.nameLimit
  temporary : (key ++ temporarySuffix).utf8ByteSize ≤ Files.Tree.nameLimit
  folderPath : (root.below [folderName key]).text.utf8ByteSize < Files.Tree.pathLimit
  entryPath : (root.below [folderName key, entryName key]).text.utf8ByteSize < Files.Tree.pathLimit
  temporaryPath : (root.below [folderName key, key ++ temporarySuffix]).text.utf8ByteSize <
    Files.Tree.pathLimit

theorem utf8ByteSize_folderName (key : String) :
    (folderName key).utf8ByteSize ≤ key.utf8ByteSize := by
  have hjoin : folderName key ++ String.ofList (key.toList.drop 2) = key := by
    rw [folderName, ← String.ofList_append, List.take_append_drop, String.ofList_toList]
  have hsize := congrArg String.utf8ByteSize hjoin
  rw [String.utf8ByteSize_append] at hsize
  omega

theorem Usable.fits {key : String} (h : Usable root key) : Fits root (normalKey key) := by
  have hkey := isKey_normalKey h.letters
  have hname := h.name
  have hpath := h.path
  rw [entryPath_eq root hkey, temporaryPath_below] at hname hpath
  generalize normalKey key = k at hkey hname hpath
  have hlast : (root.below [folderName k, k ++ temporarySuffix]).name = k ++ temporarySuffix := by
    simp [Files.Path.name, Files.Path.below]
  have hfolder := utf8ByteSize_folderName k
  have htemporary : (k ++ temporarySuffix).utf8ByteSize = k.utf8ByteSize + 9 :=
    String.utf8ByteSize_append
  have hentry : (entryName k).utf8ByteSize = k.utf8ByteSize + 8 := String.utf8ByteSize_append
  have hsize := Files.Path.utf8ByteSize_text_below root (folderName k)
  have hfolderPath := hsize []
  have hentryPath := hsize [entryName k]
  have htemporaryPath := hsize [k ++ temporarySuffix]
  rw [hlast] at hname
  simp only [List.map_cons, List.map_nil, List.sum_cons, List.sum_nil]
    at hfolderPath hentryPath htemporaryPath
  exact ⟨hkey, by omega, by omega, hname, by omega, by omega, hpath⟩

end Cache.Disk
end PETriage
