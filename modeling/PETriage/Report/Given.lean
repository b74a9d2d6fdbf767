import PETriage.Json.Arithmetic
import PETriage.Report.Records

/-!
# Section entries with fields of any kind

What a section entry tells when its fields are values of any kind: a statistic may be given as
a number in place of its text, and any other field has to be of its own kind.
-/
namespace PETriage.Report.SectionEntry

def addressGiven : Value → Except Misfit Int
  | .str t =>
    (t.whole?.bind fun s => { name := "", address := s : SectionEntry }.addressValue?).elim
      (.error .form) .ok
  | _ => .error .kind

def statisticGiven : Value → Except Misfit Float
  | .str t =>
    (t.whole?.bind fun s => { name := "", entropy := s : SectionEntry }.entropyValue?).elim
      (.error .form) .ok
  | v => v.term

def flagsGiven (v : Value) : Except Misfit (List String) :=
  v.bits.map fun n => { name := "", characteristics := n : SectionEntry }.flags

def writableExecutableGiven (v : Value) : Except Misfit Bool :=
  v.bits.map fun n => { name := "", characteristics := n : SectionEntry }.isWritableExecutable

def placeholderGiven : Value → Except Misfit Bool
  | .str t => .ok { name := t : SectionEntry }.isPlaceholder
  | _ => .error .noText

/-- The fields of an entry, of which the name has to be given. -/
def fieldNames : List Text :=
  ["name", "virtual_address", "virtual_size", "raw_size", "entropy", "chi_square",
    "characteristics"]

def isEntry (o : Fields) : Bool :=
  (o.get? "name").isSome && o.all fun (key, _) => fieldNames.contains key

end PETriage.Report.SectionEntry
