/-
  Generating the output of all units.

  * `Layout.generate`: the outputs of the selected units that have any.

  The first unit for which no output can be made decides the result.
-/
import InterfaceGuards.Unit.Build

namespace InterfaceGuards

/-- The outputs made, and the findings of all units, also of those without output. -/
structure Generation where
  units : List GeneratedUnit
  diagnostics : List Diagnostic
deriving Repr

/-- The units for which output is made: eligible ones that are selected. -/
def Catalog.eligibleUnits (catalog : Catalog) (selects : Path → Bool) : List SourceUnit :=
  catalog.units.filter fun u => u.path.isEligible && selects u.path

namespace Layout

/-- The outputs of several units; those with nothing in them are left out. -/
def buildAll (l : Layout) (catalog : Catalog) : List SourceUnit → Except GenerateError Generation
  | [] => .ok ⟨[], []⟩
  | u :: us => do
    let (made, findings) ← l.build catalog u
    let rest ← l.buildAll catalog us
    .ok ⟨if made.isEmpty then rest.units else made :: rest.units, findings ++ rest.diagnostics⟩

/-- The outputs of the selected units. -/
def generate (l : Layout) (catalog : Catalog) (selects : Path → Bool) :
    Except GenerateError Generation :=
  l.buildAll catalog (catalog.eligibleUnits selects)

end Layout

end InterfaceGuards
