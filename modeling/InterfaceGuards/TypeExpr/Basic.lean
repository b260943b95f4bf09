/-
  Declared types, as they are written.

  * `Primitive`, `Literal`: the leaves.
  * `TypeExpr`, `Member`: a type and a member of an object type.
  * `TypeExpr.display`: the short text that names a type in a message.
-/
import InterfaceGuards.Number.Shortest
import InterfaceGuards.Path.Basic

namespace InterfaceGuards

/-- The primitive kinds. -/
inductive Primitive where
  | number
  | string
  | boolean
  | bigint
  | null
  | function
deriving DecidableEq, Repr

namespace Primitive

/-- The kind that a keyword names. -/
def ofKeyword? : String → Option Primitive
  | "number" => some .number
  | "string" => some .string
  | "boolean" => some .boolean
  | "bigint" => some .bigint
  | "null" => some .null
  | "Function" => some .function
  | _ => none

/-- The name of a kind. -/
def name : Primitive → String
  | .number => "number"
  | .string => "string"
  | .boolean => "boolean"
  | .bigint => "bigint"
  | .null => "null"
  | .function => "function"

end Primitive

/-- The value that a literal type holds. -/
inductive Literal where
  | string (text : String)
  | number (value : Double)
  | boolean (value : Bool)
deriving DecidableEq, Repr

/-- The text that names a literal type in a message. -/
def Literal.display : Literal → String
  | .string text => "'" ++ text ++ "'"
  | .number value => value.text
  | .boolean true => "true"
  | .boolean false => "false"

/-- What kind of signature a member is. -/
inductive MemberKind where
  | property
  | method
  | index
deriving DecidableEq, Repr

/-- A member whose type is given by `τ`.  Name and type may be missing: such a member is kept, and
    whoever meets it decides what to do. -/
structure MemberOf (τ : Type) where
  name : Option String
  type : Option τ
  optional : Bool
  kind : MemberKind
deriving Repr

/-- A declared type, as it is written.

    A reference to a named type carries its arguments and the unit it was written in. -/
inductive TypeExpr where
  | keyword (kind : Primitive)
  | literal (value : Literal)
  | array (element : TypeExpr)
  | object (members : List (MemberOf TypeExpr))
  | union (alternatives : List TypeExpr)
  | function
  | param (name : String)
  | named (name : String) (args : List TypeExpr) (origin : Option Path)
  | unsupported (kind : String)
deriving Repr

instance : Inhabited TypeExpr := ⟨.function⟩

/-- A member of a declaration or of an inline object type. -/
abbrev Member := MemberOf TypeExpr

/-- The name that stands for a member in a message. -/
def MemberOf.displayName {τ : Type} (m : MemberOf τ) : String := m.name.getD "<unnamed>"

/-- The text that names an object type with so many members. -/
def displayMembers (count : Nat) : String :=
  "\x7b " ++ toString count ++ " members \x7d"

namespace TypeExpr

/-- The text that names a reference with the given texts of its arguments. -/
def displayNamed (name : String) (args : List String) : String :=
  if args.isEmpty then name else name ++ "<" ++ Text.joinWith ", " args ++ ">"

mutual

/-- The text that names a type in a message. -/
def display : TypeExpr → String
  | .keyword kind => kind.name
  | .literal value => value.display
  | .array element => element.display ++ "[]"
  | .object members => displayMembers members.length
  | .union alternatives => Text.joinWith " | " (displayAll alternatives)
  | .function => "function"
  | .param name => name
  | .named name args _ => displayNamed name (displayAll args)
  | .unsupported kind => kind

/-- The texts of several types. -/
def displayAll : List TypeExpr → List String
  | [] => []
  | t :: ts => t.display :: displayAll ts

end

end TypeExpr

end InterfaceGuards
