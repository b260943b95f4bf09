/-
  The script made for a unit.

  * `InterfaceScript`: the factory and the guard of one interface.
  * `UnitScript`: imports, helper definitions, then factories and guards.
  * `Requirements`: the helpers and imports that a unit needs.
-/
import InterfaceGuards.Code.Imports
import InterfaceGuards.Declaration
import InterfaceGuards.Script.Factory
import InterfaceGuards.Script.Guard

namespace InterfaceGuards

open Script (Check Expr Function Helper Import Param)

/-- How the type of a declaration is written, with its own type parameters as arguments. -/
def Declaration.typeName (d : Declaration) : String := d.name ++ Script.angled d.typeParams

/-- What is made for an interface: the record that its factory returns and the statements of its
    guard. -/
structure InterfaceScript where
  declaration : Declaration
  record : Expr
  checks : List Check
deriving Repr

namespace InterfaceScript

/-- The declaration of the factory. -/
def factory (i : InterfaceScript) : Function where
  name := Script.factoryName i.declaration.name
  exported := true
  generics := i.declaration.typeParams
  params :=
    [⟨"params", "Partial<" ++ i.declaration.typeName ++ ">", false, some "\x7b\x7d"⟩]
  returns := some i.declaration.typeName

/-- The declaration of the guard. -/
def guard (i : InterfaceScript) : Function where
  name := Script.guardName i.declaration.name
  exported := true
  generics := i.declaration.typeParams
  params := [.required "value" "unknown"]
  returns := some ("value is " ++ i.declaration.typeName)

/-- The code of the factory. -/
def factoryCode (i : InterfaceScript) : Code :=
  i.factory.code (.line 0 "return " :: i.record.code ++ [.raw ";\n"])

/-- The code of the guard. -/
def guardCode (i : InterfaceScript) : Code :=
  i.guard.code (Check.codeAll i.checks ++ Script.returnTrue)

/-- The code of the factory and the guard. -/
def code (i : InterfaceScript) : Code := i.factoryCode ++ i.guardCode

end InterfaceScript

/-- The helpers and imports that a unit needs; the helpers are in the order of definition, and
    the imports name source units by their paths. -/
structure Requirements where
  helpers : List Helper
  imports : Code.Imports
deriving DecidableEq, Repr

namespace Requirements

/-- Nothing needed. -/
def none : Requirements := ⟨[], .empty⟩

/-- A helper is needed. -/
def requireHelper (r : Requirements) (helper : Helper) : Requirements :=
  { r with helpers := Helper.all.filter fun h => h = helper || r.helpers.contains h }

/-- Symbols of a source unit are needed. -/
def requireImport (r : Requirements) (source : Path) (symbols : List String) : Requirements :=
  { r with imports := r.imports.addAll source.text symbols }

end Requirements

/-- The script made for a unit. -/
structure UnitScript where
  imports : List Import
  helpers : List Helper
  interfaces : List InterfaceScript
deriving Repr

/-- The code of a unit: imports, then helpers, then factories and guards. -/
def UnitScript.code (u : UnitScript) : Code :=
  u.imports.flatMap Import.code ++ u.helpers.flatMap Helper.code ++
    u.interfaces.flatMap InterfaceScript.code

end InterfaceGuards
