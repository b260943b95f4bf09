/-
  Descriptions: what a declared type amounts to once its names are resolved.

  Members of objects keep their declared types; they are described only when
  somebody gets there, so that a type may refer to itself.
-/
import InterfaceGuards.TypeExpr.Basic

namespace InterfaceGuards

/-- What a declared type amounts to.

    An object type that was reached through an alias keeps the alias's name.  A reference stands
    for a generic type, which cannot be looked into. -/
inductive Description where
  | primitive (kind : Primitive)
  | literal (value : Literal)
  | array (element : Description)
  | object (members : List Member)
  | union (alternatives : List Description)
  | classLike (name : String) (members : List Member)
  | alias (name : String) (target : Description)
  | reference (name : String)
  | unsupported (kind : String)
deriving Repr

namespace Description

/-- The name of the built-in class of dates. -/
def dateName : String := "Date"

/-- The built-in class of dates. -/
def date : Description := .classLike dateName []

/-- Whether the description is taken for the built-in class of dates, which goes by the name. -/
def isDate : Description → Bool
  | .classLike name _ => name == dateName
  | _ => false

/-- The members of an object or class, also when it was reached through an alias. -/
def members : Description → List Member
  | .object ms => ms
  | .classLike _ ms => ms
  | .alias _ target => target.members
  | _ => []

mutual

/-- The text that names a description in a message. -/
def display : Description → String
  | .primitive kind => kind.name
  | .literal value => value.display
  | .array element => element.display ++ "[]"
  | .object ms => displayMembers ms.length
  | .union alternatives => Text.joinWith " | " (displayAll alternatives)
  | .classLike name _ => name
  | .alias name _ => name
  | .reference name => name ++ " (unresolved)"
  | .unsupported kind => kind

/-- The texts of several descriptions. -/
def displayAll : List Description → List String
  | [] => []
  | d :: ds => d.display :: displayAll ds

end

/-- The alternatives of a description: those of a union, or the description alone. -/
def alternatives : Description → List Description
  | .union ds => ds
  | d => [d]

end Description

end InterfaceGuards
