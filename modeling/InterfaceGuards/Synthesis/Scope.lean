/-
  Where code is being made.

  * `Scope`: the catalog, the unit, the names being expanded and the members passed through.
  * `Catalog.size`, `expansionBound`: how deep an expansion that ends can be.
-/
import InterfaceGuards.Synthesis.Outcome

namespace InterfaceGuards

/-- Where code is being made: the unit it is made for, the names whose members are being
    expanded and the members passed through, the latest of each first. -/
structure Scope where
  catalog : Catalog
  unit : SourceUnit
  expanding : List String
  path : List String
deriving Repr

namespace Scope

/-- The scope in which work on a unit starts. -/
def start (catalog : Catalog) (unit : SourceUnit) : Scope := ⟨catalog, unit, [], []⟩

/-- The scope inside the members of a name. -/
def expand (s : Scope) (name : String) : Scope := { s with expanding := name :: s.expanding }

/-- The scope inside a member. -/
def within (s : Scope) (segment : String) : Scope := { s with path := segment :: s.path }

/-- Whether the members of a name are being expanded. -/
def isExpanding (s : Scope) (name : String) : Bool := s.expanding.contains name

/-- Whether the unit gets a guard for a name. -/
def generates (s : Scope) (name : String) : Bool := s.unit.interfaces.any (·.name == name)

/-- The text that says where the scope is. -/
def location (s : Scope) : String :=
  s.unit.path.text ++ ": " ++ Text.joinWith "." s.path.reverse

/-- A warning at the place of the scope. -/
def warning (s : Scope) (phase message : String) : Diagnostic :=
  .warning phase message s.location

/-- The warning that a member is left out. -/
def skipped (s : Scope) (phase : String) (e : SynthesisError) : Diagnostic :=
  s.warning phase ("skipped: " ++ e.message)

end Scope

/-! ## Sizes -/

mutual

/-- The number of parts of a type. -/
def TypeExpr.size : TypeExpr → Nat
  | .array element => element.size + 1
  | .object members => TypeExpr.sizeOfMembers members + 1
  | .union alternatives => TypeExpr.sizeOfAll alternatives + 1
  | .named _ args _ => TypeExpr.sizeOfAll args + 1
  | _ => 1

/-- The number of parts of several types. -/
def TypeExpr.sizeOfAll : List TypeExpr → Nat
  | [] => 0
  | t :: ts => t.size + TypeExpr.sizeOfAll ts

/-- The number of parts of several members. -/
def TypeExpr.sizeOfMembers : List (MemberOf TypeExpr) → Nat
  | [] => 0
  | m :: ms => TypeExpr.sizeOfMember m + TypeExpr.sizeOfMembers ms

/-- The number of parts of a member. -/
def TypeExpr.sizeOfMember : MemberOf TypeExpr → Nat
  | ⟨_, type, _, _⟩ => TypeExpr.sizeOfOption type + 1

/-- The number of parts of a type that may be missing. -/
def TypeExpr.sizeOfOption : Option TypeExpr → Nat
  | none => 0
  | some t => t.size

end

/-- The number of parts of a declaration. -/
def Declaration.size (d : Declaration) : Nat :=
  TypeExpr.sizeOfMembers d.members + 1 +
    match d.kind with
    | .alias target => target.size
    | _ => 0

/-- The number of parts of all declarations of a unit. -/
def SourceUnit.size (u : SourceUnit) : Nat := u.declarations.foldr (fun d n => d.size + n) 0

/-- The number of parts of all declarations. -/
def Catalog.size (c : Catalog) : Nat := c.units.foldr (fun u n => u.size + n) 0

mutual

/-- The number of parts of a description. -/
def Description.size : Description → Nat
  | .array element => element.size + 1
  | .object members => TypeExpr.sizeOfMembers members + 1
  | .union alternatives => Description.sizeOfAll alternatives + 1
  | .classLike _ members => TypeExpr.sizeOfMembers members + 1
  | .alias _ target => target.size + 1
  | _ => 1

/-- The number of parts of several descriptions. -/
def Description.sizeOfAll : List Description → Nat
  | [] => 0
  | d :: ds => d.size + Description.sizeOfAll ds

end

/-- How many members deep the expansion of something of a size may go in a catalog.

    An expansion goes from member to member.  As long as no further name is expanded, meeting
    the same type twice means that there is no end; so an expansion that ends passes through no
    more members than there are types, for each name that can be expanded. -/
def Catalog.expansionBound (c : Catalog) (size : Nat) : Nat :=
  (c.size + size + 2) * (c.size + size + 2)

end InterfaceGuards
