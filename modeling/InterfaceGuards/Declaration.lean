/-
  Declarations and the units that hold them.

  * `Declaration`: a named interface, class or alias.
  * `SourceUnit`: a source file with its declarations in order.
  * `Catalog`: all units known, and how a name is looked up in them.
-/
import InterfaceGuards.TypeExpr.Basic

namespace InterfaceGuards

/-- The kinds of declaration; an alias has the type it stands for. -/
inductive DeclarationKind where
  | interfaceType
  | classType
  | alias (target : TypeExpr)
deriving Repr

/-- A named declaration. -/
structure Declaration where
  name : String
  kind : DeclarationKind
  typeParams : List String
  members : List Member
deriving Repr

namespace Declaration

/-- Whether the declaration is an interface. -/
def isInterface (d : Declaration) : Bool :=
  match d.kind with
  | .interfaceType => true
  | _ => false

/-- Whether the declaration has type parameters. -/
def isGeneric (d : Declaration) : Bool := !d.typeParams.isEmpty

end Declaration

/-- A source file with its declarations in order. -/
structure SourceUnit where
  path : Path
  declarations : List Declaration
deriving Repr

namespace SourceUnit

/-- The interfaces of a unit, in order. -/
def interfaces (u : SourceUnit) : List Declaration := u.declarations.filter Declaration.isInterface

/-- The first declaration of a name, of whatever kind. -/
def find? (u : SourceUnit) (name : String) : Option Declaration :=
  u.declarations.find? (·.name == name)

end SourceUnit

/-- All units known, in order. -/
structure Catalog where
  units : List SourceUnit
deriving Repr

namespace Catalog

/-- The units whose path has the same steps as a given one. -/
def unitsAt (c : Catalog) (origin : Path) : List SourceUnit :=
  c.units.filter fun u => decide (u.path.components = origin.components)

/-- The declaration that a name means: one of the unit it was written in, else the first of all. -/
def lookup? (c : Catalog) (name : String) (origin : Option Path) : Option Declaration :=
  let home :=
    match origin with
    | some path => (c.unitsAt path).findSome? (·.find? name)
    | none => none
  home <|> c.units.findSome? (·.find? name)

end Catalog

end InterfaceGuards
