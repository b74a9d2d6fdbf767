import PETriage.External.Analyzer

/-!
# Registry of external analyzers

Analyzers stand in the order in which their names were first registered; a later one of
the same name takes the place of the earlier.
-/
namespace PETriage.External

abbrev Registry := List Analyzer

namespace Registry

def register : Registry → Analyzer → Registry
  | [], a => [a]
  | b :: rest, a => if b.name = a.name then a :: rest else b :: register rest a

def named? (r : Registry) (name : String) : Option Analyzer := r.find? (·.name == name)

def firstAvailable? (r : Registry) : Option Analyzer := r.find? (·.available)

/-- The analyzer of this name, or the first available one. -/
def get? (r : Registry) : Option Text → Option Analyzer
  | some name => name.whole?.bind r.named?
  | none => r.firstAvailable?

theorem named?_register (r : Registry) (a : Analyzer) (name : String) :
    (r.register a).named? name = if a.name = name then some a else r.named? name := by
  induction r with
  | nil => by_cases h : a.name = name <;> simp [register, named?, h]
  | cons b rest ih =>
    simp only [named?] at ih
    by_cases hb : b.name = a.name
    · by_cases h : a.name = name <;> simp [register, named?, hb, h]
    · rw [register, if_neg hb, named?, List.find?_cons, ih]
      by_cases h : b.name = name
      · have hn : ¬ a.name = name := fun e => hb (h.trans e.symm)
        simp [named?, h, hn]
      · rw [named?, List.find?_cons, beq_eq_false_iff_ne.mpr h]

end Registry
end PETriage.External
