import PETriage.Proofs.Cache.Refinement
import PETriage.Proofs.Report.InRange

/-!
# Lookups of entries with any content

What a lookup makes of an entry depends on the bytes of the entry alone. Of the ways in which
these cannot be read some remove the entry; the others make the lookup fail, and leave an entry
that makes every later one fail too.
-/
namespace PETriage

/-! ## Results in range -/

namespace Report

/-- Where the optional header stands, in a payload or in an analysis printed earlier. -/
def optionalAt (o : Fields) : Value :=
  if isPayload o then fieldOrNull (headerOf o) "optional" else fieldOrNull o "optional_header"

/-- Every whole number in a result that is written as a text, and every one that is kept as a
binary value, is small enough for it. -/
structure ResultInRange (o : Fields) : Prop where
  functions : ∀ i, .object i ∈ itemsAt o "imports" → ∀ f ∈ itemsAt i "functions",
    ∀ n ∈ (functionSource f).wholes, Number.Writable n
  resources : ∀ r, .object r ∈ itemsAt o "resources" → ResourceInRange r
  subsystem : ∀ h, optionalAt o = .object h → SubsystemInRange (subsystemOf (.object h))

theorem succeeds_ofValue_iff (o : Fields) :
    Succeeds (Analysis.ofValue (.object o)) ↔ ResultInRange o := by
  have hparts (parts : Parts) (hoptional : parts.optional = optionalAt o) :
      Succeeds (Analysis.assemble o parts none) ↔ ResultInRange o := by
    rw [succeeds_assemble_iff, succeeds_importsOf_iff, succeeds_resourcesOf_iff,
      succeeds_optional_iff, hoptional]
    simp only [succeeds_importOf?_iff, succeeds_resourceOf?_iff]
    constructor
    · rintro ⟨hi, hr, ho⟩
      exact ⟨fun i hmem => hi _ hmem i rfl, fun r hmem => hr _ hmem r rfl, ho⟩
    · rintro ⟨hi, hr, ho⟩
      refine ⟨?_, ?_, ho⟩
      · rintro _ hmem i rfl
        exact hi i hmem
      · rintro _ hmem r rfl
        exact hr r hmem
  rw [Analysis.ofValue, ofPayload_eq_assemble, ofPrinted_eq_assemble]
  split
  · rename_i hp
    exact hparts _ (if_pos hp).symm
  · rename_i hp
    exact hparts _ (if_neg hp).symm

end Report

namespace Cache.Disk

open Report (Analysis Copyable Raw ResultInRange)
open Files (Path Place Node Tree)

/-! ## What the bytes of an entry come to -/

def readLimits : Json.Limits := ⟨some Number.decimalDigitLimit, some depthLimit⟩

/-- Bytes that are no compressed text of a value, or that are a wrapper around no object. -/
inductive Broken (b : ByteArray) : Prop
  | compressed {e : Gzip.ReadError} (h : Gzip.decompress (Bytes.toList b) = .error e)
    (he : e ≠ .corrupt)
  | text {xs : List UInt8} {cs : List Char} (hx : Gzip.decompress (Bytes.toList b) = .ok xs)
    (hc : Text.Utf8.decode? xs = some cs)
    (hr : Json.read readLimits (String.ofList cs) = .error .malformed)
  | result {v w : Value} (hv : entryValue b = .ok v) (hw : currentResult? v = some w)
    (ho : ∀ o, w ≠ .object o)

/-- Bytes that break off a lookup: a stream that is corrupt inside, bytes that are no characters, a
text beyond the limits of the reader, or a result with a number out of range or with a payload that
there is no room to copy. -/
inductive Poisonous (room : Option Nat) (b : ByteArray) : Prop
  | compressed (h : Gzip.decompress (Bytes.toList b) = .error .corrupt)
  | characters {xs : List UInt8} (hx : Gzip.decompress (Bytes.toList b) = .ok xs)
    (hc : Text.Utf8.decode? xs = none)
  | text {xs : List UInt8} {cs : List Char} {e : Json.ReadError}
    (hx : Gzip.decompress (Bytes.toList b) = .ok xs) (hc : Text.Utf8.decode? xs = some cs)
    (hr : Json.read readLimits (String.ofList cs) = .error e) (he : e ≠ .malformed)
  | result {v : Value} {o : Fields} (hv : entryValue b = .ok v)
    (ho : currentResult? v = some (.object o)) (hr : ¬ResultInRange o)
  | payload {v : Value} {o : Fields} (hv : entryValue b = .ok v)
    (ho : currentResult? v = some (.object o))
    (hp : ¬Copyable room (Raw.value (.object o)).payload?)

/-- A value that is no wrapper of the current version. -/
def Foreign (b : ByteArray) : Prop := ∃ v, entryValue b = .ok v ∧ currentResult? v = none

def Restores (room : Option Nat) (b : ByteArray) (a : Analysis) : Prop :=
  ∃ v o, entryValue b = .ok v ∧ currentResult? v = some (.object o) ∧
    Analysis.ofValue (.object o) room = .ok a

/-- The answer to a lookup of an entry that stays, and nothing for one that is removed. -/
def answer? (room : Option Nat) (b : ByteArray) : Option (Except GetFault (Option Analysis)) :=
  match entryValue b with
  | .error .unreadable => none
  | .error fault => some (.error (.entry fault))
  | .ok v =>
    match currentResult? v with
    | none => some (.ok none)
    | some (.object o) =>
      some (((Analysis.ofValue (.object o) room).map some).mapError .unnormalized)
    | some _ => none

variable {room : Option Nat} {t : Tree} {root path : Path} {key : String} {p q r : Place}
  {a : Analysis} {b : ByteArray} {v w : Value} {o : Fields} {xs : List UInt8} {cs : List Char}

theorem entryValue_of_text (hx : Gzip.decompress (Bytes.toList b) = .ok xs)
    (hc : Text.Utf8.decode? xs = some cs) : entryValue b =
      match Json.read readLimits (String.ofList cs) with
      | .error .malformed => .error .unreadable
      | .error .tooManyDigits => .error .tooManyDigits
      | .error .tooDeep => .error .tooDeep
      | .ok v => .ok v := by
  rw [entryValue, hx]
  simp only [hc]
  rfl

theorem answer?_of_object (hv : entryValue b = .ok v) (ho : currentResult? v = some (.object o)) :
    answer? room b =
      some (((Analysis.ofValue (.object o) room).map some).mapError .unnormalized) := by
  rw [answer?, hv]
  simp only [ho]

theorem Broken.answer?_eq (h : Broken b) : answer? room b = none := by
  cases h with
  | @compressed e h he =>
    rw [answer?, entryValue, h]
    cases e with
    | corrupt => exact absurd rfl he
    | _ => rfl
  | text hx hc hr =>
    rw [answer?, entryValue_of_text hx hc, hr]
  | @result v w hv hw ho =>
    rw [answer?, hv]
    simp only [hw]

theorem Poisonous.answer?_eq (h : Poisonous room b) :
    ∃ fault, answer? room b = some (.error fault) := by
  cases h with
  | compressed h =>
    refine ⟨.entry .corruptStream, ?_⟩
    rw [answer?, entryValue, h]
  | characters hx hc =>
    refine ⟨.entry .badCharacters, ?_⟩
    rw [answer?, entryValue, hx]
    simp only [hc]
  | @text _ _ e hx hc hr he =>
    rw [answer?, entryValue_of_text hx hc, hr]
    cases e with
    | malformed => exact absurd rfl he
    | tooManyDigits => exact ⟨_, rfl⟩
    | tooDeep => exact ⟨_, rfl⟩
  | @result v o hv ho hr =>
    rw [answer?_of_object hv ho]
    cases hread : Analysis.ofValue (.object o) room with
    | ok a =>
      exact absurd ((Report.succeeds_ofValue_iff o).1
        ⟨a, (Report.ofValue_eq_ok_iff.1 hread).2⟩) hr
    | error e => exact ⟨.unnormalized e, rfl⟩
  | @payload v o hv ho hp =>
    rw [answer?_of_object hv ho, Report.ofValue_of_not_copyable hp]
    exact ⟨_, rfl⟩

theorem Foreign.answer?_eq (h : Foreign b) : answer? room b = some (.ok none) := by
  obtain ⟨v, hv, hw⟩ := h
  rw [answer?, hv]
  simp only [hw]

theorem Restores.answer?_eq (h : Restores room b a) : answer? room b = some (.ok (some a)) := by
  obtain ⟨v, o, hv, ho, hread⟩ := h
  rw [answer?_of_object hv ho, hread]
  rfl

theorem poisonous_or_broken_of_error {fault : EntryFault} (h : entryValue b = .error fault) :
    Poisonous room b ∨ Broken b := by
  cases hx : Gzip.decompress (Bytes.toList b) with
  | error e =>
    by_cases he : e = .corrupt
    · exact .inl (.compressed (he ▸ hx))
    · exact .inr (.compressed hx he)
  | ok xs =>
    cases hc : Text.Utf8.decode? xs with
    | none => exact .inl (.characters hx hc)
    | some cs =>
      cases hr : Json.read readLimits (String.ofList cs) with
      | error e =>
        by_cases he : e = .malformed
        · exact .inr (.text hx hc (he ▸ hr))
        · exact .inl (.text hx hc hr he)
      | ok v =>
        rw [entryValue_of_text hx hc, hr] at h
        cases h

/-- Every row of bytes has one of four fates. -/
theorem fate (room : Option Nat) (b : ByteArray) :
    Poisonous room b ∨ Broken b ∨ Foreign b ∨ ∃ a, Restores room b a := by
  cases hv : entryValue b with
  | error fault => exact (poisonous_or_broken_of_error hv).imp_right .inl
  | ok v =>
    cases hw : currentResult? v with
    | none => exact .inr (.inr (.inl ⟨v, hv, hw⟩))
    | some w =>
      by_cases ho : ∃ o, w = .object o
      · obtain ⟨o, rfl⟩ := ho
        by_cases hp : Copyable room (Raw.value (.object o)).payload?
        · by_cases hr : ResultInRange o
          · obtain ⟨a, ha⟩ := (Report.succeeds_ofValue_iff o).2 hr
            exact .inr (.inr (.inr ⟨a, v, o, hv, hw, (Report.ofValue_of_copyable hp).trans ha⟩))
          · exact .inl (.result hv hw hr)
        · exact .inl (.payload hv hw hp)
      · exact .inr (.inl (.result hv hw fun o h => ho ⟨o, h⟩))

theorem broken_iff : Broken b ↔ answer? room b = none := by
  refine ⟨Broken.answer?_eq, fun h => ?_⟩
  rcases fate room b with hb | hb | hb | ⟨a, hb⟩
  · obtain ⟨fault, hfault⟩ := hb.answer?_eq
    rw [h] at hfault
    cases hfault
  · exact hb
  · cases h.symm.trans hb.answer?_eq
  · cases h.symm.trans hb.answer?_eq

theorem poisonous_iff : Poisonous room b ↔ ∃ fault, answer? room b = some (.error fault) := by
  refine ⟨Poisonous.answer?_eq, ?_⟩
  rintro ⟨fault, h⟩
  rcases fate room b with hb | hb | hb | ⟨a, hb⟩
  · exact hb
  · cases h.symm.trans hb.answer?_eq
  · cases h.symm.trans hb.answer?_eq
  · cases h.symm.trans hb.answer?_eq

/-! ## One lookup -/

theorem exists_nodeAt_of_contents (h : t.contents path = .ok b) :
    ∃ q, t.nodeAt path = .ok (q, .file b) := by
  obtain ⟨⟨q, n⟩, hn, h⟩ := bind_eq_ok_iff.1 h
  cases n with
  | folder => cases h
  | file c =>
    cases h
    exact ⟨q, hn⟩

/-- The answer to a lookup, and the place of the entry that it removes. -/
theorem getAt_eq (t : Tree) (path : Path) (room : Option Nat) : getAt t path room =
    match t.nodeAt path with
    | .error .nameTooLong => (.error .nameTooLong, t)
    | .error _ => (.ok none, t)
    | .ok (_, .folder) => (.ok none, t)
    | .ok (q, .file b) =>
      match answer? room b with
      | none => (.ok none, t.without q)
      | some r => (r, t) := by
  rw [getAt, Tree.hasNode, Tree.contents]
  cases hn : t.nodeAt path with
  | error fault => cases fault <;> rfl
  | ok found =>
    obtain ⟨q, n⟩ := found
    cases n with
    | folder =>
      have hremove : discard t path = t := by
        rw [discard, Tree.remove, hn]
        rfl
      show (Except.ok none, discard t path) = _
      rw [hremove]
    | file b =>
      have hremove : discard t path = t.without q := by
        rw [discard, Tree.remove, hn]
        rfl
      simp only [Tree.answered, answer?, bind, Except.bind, pure, Except.pure, hremove]
      cases hv : entryValue b with
      | error fault => cases fault <;> simp
      | ok v =>
        cases hw : currentResult? v with
        | none => simp [hw]
        | some w => cases w <;> simp [hw]

theorem ne_nil_of_file (h : t.node? q = some (.file b)) : q ≠ [] := by
  rintro rfl
  cases h

theorem getAt_of_file (h : t.nodeAt path = .ok (q, .file b)) : getAt t path room =
    match answer? room b with
    | none => (.ok none, t.without q)
    | some r => (r, t) := by rw [getAt_eq, h]

theorem getAt_snd (t : Tree) (path : Path) (room : Option Nat) : (getAt t path room).2 = t ∨
    ∃ q b, t.nodeAt path = .ok (q, .file b) ∧ Broken b ∧
      (getAt t path room).2 = t.without q := by
  rw [getAt_eq]
  cases hn : t.nodeAt path with
  | error fault => cases fault <;> exact .inl rfl
  | ok found =>
    obtain ⟨q, n⟩ := found
    cases n with
    | folder => exact .inl rfl
    | file b =>
      cases hb : answer? room b with
      | none =>
        refine .inr ⟨q, b, rfl, broken_iff.2 hb, ?_⟩
        simp only [hb]
      | some r =>
        refine .inl ?_
        simp only [hb]

theorem keepsFolders_without (h : t.node? q = some (.file b)) : t.KeepsFolders (t.without q) := by
  intro r hr
  rw [Tree.node?_without t q r (ne_nil_of_file h), if_neg]
  · exact hr
  · rintro rfl
    cases h.symm.trans hr

theorem resolve_without (h : t.resolve path = .ok p) (hq : t.node? q = some (.file b)) :
    (t.without q).resolve path = .ok p :=
  Tree.resolve_of_folders (t := t) rfl (keepsFolders_without hq) h

/-! ## Runs of lookups -/

def after (root : Path) (room : Option Nat) (t : Tree) (calls : List Call) : Tree :=
  calls.foldl (fun t call => (answer root room t call).2) t

theorem after_cons (root : Path) (room : Option Nat) (t : Tree) (call : Call) (calls : List Call) :
    after root room t (call :: calls) = after root room (answer root room t call).2 calls :=
  List.foldl_cons ..

theorem answer_get_snd (root : Path) (room : Option Nat) (t : Tree) (key : String) :
    (answer root room t (.get key)).2 = (get root t key room).2 := by simp only [answer, cache]

theorem answer_put_snd (root : Path) (room : Option Nat) (t : Tree) (key : String) (a : Analysis) :
    (answer root room t (.put key a)).2 = (put root t key a).2 := by simp only [answer, cache]

theorem answer_clear_snd (root : Path) (room : Option Nat) (t : Tree) :
    (answer root room t .clear).2 = (clear root t).2 := by simp only [answer]

/-- No lookup, of whichever key, removes an entry that is poisonous. -/
theorem Poisonous.nodeAt_getAt (hb : Poisonous room b) (h : t.nodeAt path = .ok (q, .file b))
    (other : Path) : (getAt t other room).2.nodeAt path = .ok (q, .file b) := by
  rcases getAt_snd t other room with hsame | ⟨r, c, hr, hc, hremoved⟩
  · rw [hsame]
    exact h
  · obtain ⟨hresolve, hnode⟩ := Tree.nodeAt_eq_ok_iff.1 h
    have hfile := (Tree.nodeAt_eq_ok_iff.1 hr).2
    have hne : q ≠ r := by
      rintro rfl
      cases hnode.symm.trans hfile
      obtain ⟨fault, hfault⟩ := hb.answer?_eq
      cases hc.answer?_eq.symm.trans hfault
    rw [hremoved, Tree.nodeAt_eq_ok_iff, Tree.node?_without t r q (ne_nil_of_file hfile),
      if_neg hne]
    exact ⟨resolve_without hresolve hfile, hnode⟩

theorem Poisonous.nodeAt_after (hb : Poisonous room b) (h : t.nodeAt path = .ok (q, .file b))
    (keys : List String) :
    (after root room t (keys.map .get)).nodeAt path = .ok (q, .file b) := by
  induction keys generalizing t with
  | nil => exact h
  | cons other keys ih =>
    rw [List.map_cons, after_cons, answer_get_snd]
    exact ih (hb.nodeAt_getAt h (entryPath root other))

/-- A lookup of an entry that is there, whatever bytes it has. It fails exactly if these are
poisonous, and then the entry outlives every run of lookups, and fails the one after it as well. A
broken entry gives nothing and is gone, as it is for the next lookup. One that is no wrapper of the
current version gives nothing and stays, and every other gives the analysis that it holds. Nothing
else in the tree is changed. -/
theorem get_existing (h : t.contents (entryPath root key) = .ok b) (room : Option Nat) :
    ∃ q, t.nodeAt (entryPath root key) = .ok (q, .file b) ∧
      (∀ r, r ≠ q → (get root t key room).2.node? r = t.node? r) ∧
      ((∃ found, (get root t key room).1 = .ok found) ↔ ¬Poisonous room b) ∧
      (Poisonous room b → ∃ fault, ∀ keys : List String,
        (after root room t (keys.map .get)).node? q = some (.file b) ∧
        get root (after root room t (keys.map .get)) key room =
          (.error fault, after root room t (keys.map .get))) ∧
      (Broken b → ∃ t', get root t key room = (.ok none, t') ∧ t'.node? q = none ∧
        get root t' key room = (.ok none, t')) ∧
      (Foreign b → get root t key room = (.ok none, t)) ∧
      (∀ a, Restores room b a → get root t key room = (.ok (some a), t)) ∧
      (Poisonous room b ∨ Broken b ∨ Foreign b ∨ ∃ a, Restores room b a) := by
  obtain ⟨q, hq⟩ := exists_nodeAt_of_contents h
  obtain ⟨hresolve, hnode⟩ := Tree.nodeAt_eq_ok_iff.1 hq
  have hne := ne_nil_of_file hnode
  refine ⟨q, hq, fun r hr => ?_, ?_, fun hb => ?_, fun hb => ?_, fun hb => ?_, fun a hb => ?_,
    fate room b⟩
  · rcases getAt_snd t (entryPath root key) room with hsame | ⟨p, c, hp, -, hremoved⟩
    · rw [get, hsame]
    · cases hq.symm.trans hp
      rw [get, hremoved, Tree.node?_without t q r hne, if_neg hr]
  · rw [get, getAt_of_file hq, poisonous_iff]
    cases hb : answer? room b with
    | none => simp
    | some r => cases r <;> simp
  · obtain ⟨fault, hfault⟩ := hb.answer?_eq
    refine ⟨fault, fun keys => ?_⟩
    have hstays : (after root room t (keys.map .get)).nodeAt (entryPath root key) =
        .ok (q, .file b) := hb.nodeAt_after hq keys
    refine ⟨(Tree.nodeAt_eq_ok_iff.1 hstays).2, ?_⟩
    rw [get, getAt_of_file hstays, hfault]
  · have hgone : (t.without q).node? q = none := by
      rw [Tree.node?_without t q q hne, if_pos rfl]
    have hmissing := Tree.nodeAt_of_none (resolve_without hresolve hnode) hgone
    refine ⟨t.without q, ?_, hgone, ?_⟩
    · rw [get, getAt_of_file hq, hb.answer?_eq]
    · rw [get, getAt_eq, hmissing]
  · rw [get, getAt_of_file hq, hb.answer?_eq]
  · rw [get, getAt_of_file hq, hb.answer?_eq]

/-- A cache in which one entry is stored, with any bytes. -/
def oneEntry (b : ByteArray) : Tree where
  items := [.ofPlace ["c"] .folder, .ofPlace ["c", "ab"] .folder,
    .ofPlace ["c", "ab", "ab.json.gz"] (.file b)]

theorem nodeAt_oneEntry (b : ByteArray) : (oneEntry b).nodeAt (entryPath ⟨"/", ["c"]⟩ "ab") =
    .ok (["c", "ab", "ab.json.gz"], .file b) := by
  have hpath : entryPath ⟨"/", ["c"]⟩ "ab" = ⟨"/", ["c", "ab", "ab.json.gz"]⟩ := by decide +kernel
  rw [hpath]
  rfl

theorem get_existing_empty : ∃ t', get ⟨"/", ["c"]⟩ (oneEntry .empty) "ab" = (.ok none, t') ∧
    t'.node? ["c", "ab", "ab.json.gz"] = none ∧ t'.node? ["c", "ab"] = some .folder := by
  have hnode := nodeAt_oneEntry .empty
  have hcontents : (oneEntry .empty).contents (entryPath ⟨"/", ["c"]⟩ "ab") = .ok .empty := by
    rw [Tree.contents, hnode]
    rfl
  have hcharacters : Text.Utf8.decode? [] = some [] := by decide +kernel
  have hbroken : Broken .empty := .text rfl hcharacters rfl
  obtain ⟨q, hq, hothers, -, -, hremoved, -⟩ := get_existing hcontents none
  cases hnode.symm.trans hq
  obtain ⟨t', hget, hgone, -⟩ := hremoved hbroken
  refine ⟨t', hget, hgone, ?_⟩
  have hfolder := hothers ["c", "ab"] (by decide)
  rw [hget] at hfolder
  exact hfolder

/-- A compressed byte that is no character is not removed; it makes the lookup fail. -/
theorem invalid_text_stays :
    get ⟨"/", ["c"]⟩ (oneEntry (Bytes.ofList (Gzip.compress [0xFF]))) "ab" =
      (.error (.entry .badCharacters), oneEntry (Bytes.ofList (Gzip.compress [0xFF]))) := by
  have hdecompressed :
      Gzip.decompress (Bytes.toList (Bytes.ofList (Gzip.compress [0xFF]))) = .ok [0xFF] := by
    rw [Bytes.toList_ofList, Gzip.decompress_compress]
  have hcharacters : Text.Utf8.decode? [0xFF] = none := by decide +kernel
  have hanswer : answer? none (Bytes.ofList (Gzip.compress [0xFF])) =
      some (.error (.entry .badCharacters)) := by
    rw [answer?, entryValue, hdecompressed]
    simp only [hcharacters]
  rw [get, getAt_of_file (nodeAt_oneEntry _), hanswer]

end Cache.Disk
end PETriage
