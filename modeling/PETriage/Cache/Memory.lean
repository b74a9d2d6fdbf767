import PETriage.Cache.Basic
import PETriage.Report.Normalize

/-!
# The cache in memory

Keeps the essential part of each analysis under its key as it is.
-/
namespace PETriage.Cache.Memory

open Report (Analysis Normalized)

abbrev Entries := Keyed String

def lookup (entries : Entries) (key : String) (room : Option Nat := none) :
    Normalized (Option Analysis) :=
  match entries.get? key with
  | none => .ok none
  | some v => (Analysis.ofValue v room).map some

def store (entries : Entries) (key : String) (a : Analysis) : Entries :=
  entries.put key a.essential

def cache (room : Option Nat := none) : Cache Entries where
  get key s := ((lookup s key room).mapError (·.message), s)
  put key a s := (.ok (), store s key a)

end PETriage.Cache.Memory
