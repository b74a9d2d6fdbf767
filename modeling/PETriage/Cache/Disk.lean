import PETriage.Cache.Basic
import PETriage.Files.Tree
import PETriage.Gzip.Member
import PETriage.Json.Printer
import PETriage.Json.Reader
import PETriage.Report.Normalize

/-!
# The cache on disk

One compressed file for each key, in a folder named for the first two characters of the
key. An entry of another version is left alone and gives nothing; one that cannot be read
is removed. An entry is written beside its place and then moved there.
-/
namespace PETriage.Cache.Disk

open Files (Path Place Node Tree Fault Filed)
open Report (Analysis NormalizeError)

def formatVersion : Nat := 1

def entrySuffix : String := ".json.gz"
def temporarySuffix : String := ".json.tmp"

def normalKey (key : String) : String := Text.lowerText key

def entryPath (root : Path) (key : String) : Path :=
  let key := normalKey key
  (root.join (.ofText (String.ofList (key.toList.take 2)))).join (.ofText (key ++ entrySuffix))

/-- The name of an entry with another ending. -/
def temporaryName (name : String) : String :=
  String.ofList (name.toList.take (name.length - entrySuffix.length)) ++ temporarySuffix

def temporaryPath (entry : Path) : Path := entry.withName (temporaryName entry.name)

/-! ## Entries -/

def wrapped (a : Analysis) : Value :=
  .object [("format_version", .nat formatVersion), ("result", a.essential)]

inductive EntryFault
  | unreadable
  | corruptStream
  | badCharacters
  | tooManyDigits
  | tooDeep
  deriving DecidableEq, Repr

/-- An entry may have as many brackets inside one another. -/
def depthLimit : Nat := 985

def entryValue (b : ByteArray) : Except EntryFault Value :=
  match Gzip.decompress (Bytes.toList b) with
  | .error .corrupt => .error .corruptStream
  | .error _ => .error .unreadable
  | .ok xs =>
    match Text.Utf8.decode? xs with
    | none => .error .badCharacters
    | some cs =>
      match Json.read ⟨some Number.decimalDigitLimit, some depthLimit⟩ (String.ofList cs) with
      | .error .malformed => .error .unreadable
      | .error .tooManyDigits => .error .tooManyDigits
      | .error .tooDeep => .error .tooDeep
      | .ok v => .ok v

/-- The value is one, of whichever kind. -/
def isCurrentVersion : Value → Bool
  | .int n => n == formatVersion
  | .bool b => b
  | .float x => x == 1.0
  | _ => false

/-- What an entry of the current version holds, or nothing if it is of another one. -/
def currentResult? (v : Value) : Option Value :=
  match v with
  | .object o =>
    if (Keyed.get? o "format_version").any isCurrentVersion then
      some ((Keyed.get? o "result").getD .null)
    else none
  | _ => none

/-! ## Operations -/

inductive GetFault
  | nameTooLong
  | entry (fault : EntryFault)
  | unnormalized (error : NormalizeError)
  deriving DecidableEq, Repr

def GetFault.message : GetFault → String
  | nameTooLong => "the name is too long"
  | entry .corruptStream => "the compressed data is invalid"
  | entry .badCharacters => "the text is no UTF-8"
  | entry _ => "the entry cannot be read"
  | unnormalized error => error.message

def discard (t : Tree) (path : Path) : Tree :=
  match t.remove path with
  | .ok t => t
  | .error _ => t

/-- The analysis at a place, for whose payload there may be room for only so many calls. -/
def getAt (t : Tree) (path : Path) (room : Option Nat := none) :
    Except GetFault (Option Analysis) × Tree :=
  match t.hasNode path with
  | .error _ => (.error .nameTooLong, t)
  | .ok false => (.ok none, t)
  | .ok true =>
    match t.contents path with
    | .error _ => (.ok none, discard t path)
    | .ok b =>
      match entryValue b with
      | .error .unreadable => (.ok none, discard t path)
      | .error fault => (.error (.entry fault), t)
      | .ok v =>
        match currentResult? v with
        | none => (.ok none, t)
        | some (.object o) =>
          (((Analysis.ofValue (.object o) room).map some).mapError .unnormalized, t)
        | some _ => (.ok none, discard t path)

def get (root : Path) (t : Tree) (key : String) (room : Option Nat := none) :
    Except GetFault (Option Analysis) × Tree :=
  getAt t (entryPath root key) room

/-- Why nothing was stored: the files did not allow it, or the analysis has no text. -/
inductive PutFault
  | files (entry : Path) (fault : Fault)
  | zeroInName
  | tooDeep
  | tooManyDigits
  deriving DecidableEq, Repr

def PutFault.message : PutFault → String
  | files entry _ => "could not write cache entry " ++ entry.text
  | zeroInName => "embedded null byte"
  | tooDeep => NormalizeError.message .tooDeep
  | tooManyDigits => NormalizeError.message .tooManyDigits

def putFault (entry : Path) : Fault → PutFault
  | .zeroInName => .zeroInName
  | .tooDeep => .tooDeep
  | fault => .files entry fault

def entryBytes (a : Analysis) : Except Number.WrittenError ByteArray :=
  (Json.compact? (wrapped a)).map fun text =>
    Bytes.ofList (Gzip.compress (Text.Utf8.encode text.toList))

def putAt (t : Tree) (entry : Path) (a : Analysis) : Except PutFault Unit × Tree :=
  match t.ensureFolders entry.parent with
  | (.error fault, t) => (.error (putFault entry fault), t)
  | (.ok (), t) =>
    let temporary := temporaryPath entry
    match t.setContents temporary ByteArray.empty, entryBytes a with
    | .error fault, _ => (.error (putFault entry fault), t)
    | .ok t, .error _ => (.error .tooManyDigits, t)
    | .ok t, .ok b =>
      match t.setContents temporary b with
      | .error fault => (.error (putFault entry fault), t)
      | .ok t =>
        match t.replaceFile temporary entry with
        | .error fault => (.error (putFault entry fault), t)
        | .ok t => (.ok (), t)

def put (root : Path) (t : Tree) (key : String) (a : Analysis) : Except PutFault Unit × Tree :=
  putAt t (entryPath root key) a

def isEntryName (name : String) : Bool := entrySuffix.toList.isSuffixOf name.toList

/-- Removes every entry that stands in a folder under the root, and counts them. -/
def clear (root : Path) (t : Tree) : Nat × Tree :=
  match t.nodeAt root with
  | .ok (p, .folder) =>
    let entries := (t.under p).filterMap fun (rest, n) =>
      match rest, n with
      | [folder, name], .file _ => if isEntryName name then some (p ++ [folder, name]) else none
      | _, _ => none
    (entries.length, entries.foldl Tree.without t)
  | _ => (0, t)

def cache (root : Path) (room : Option Nat := none) : Cache Tree where
  get key t :=
    let (r, t) := get root t key room
    (r.mapError (·.message), t)
  put key a t :=
    let (r, t) := put root t key a
    (r.mapError fun
      | fault@(.files ..) => Cache.PutFault.notWritten fault.message
      | fault => Cache.PutFault.broken fault.message, t)

end PETriage.Cache.Disk
