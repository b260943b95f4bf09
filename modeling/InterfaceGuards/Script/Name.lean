/-
  How names and values are spelled in generated scripts.

  * `factoryName`, `guardName`: the functions made for an interface.
  * `Literal.expression`, `Primitive.zeroValue`: expressions for values.
  * `Accessor`: a variable followed by property accesses.
-/
import InterfaceGuards.Text.Quoted
import InterfaceGuards.TypeExpr.Basic

namespace InterfaceGuards

namespace Script

/-- The name of the factory of a type. -/
def factoryName (type : String) : String := "create" ++ type

/-- The name of the guard of a type. -/
def guardName (type : String) : String := "is" ++ type

/-- A number as an expression. -/
def numberExpression : Double → String
  | .nan => "NaN"
  | .infinite negative => if negative then "-Infinity" else "Infinity"
  | x => x.text

/-- A variable, or any other expression, followed by accesses to named properties. -/
structure Accessor where
  base : String
  keys : List String
deriving DecidableEq, Repr

namespace Accessor

/-- The property of a name. -/
def property (a : Accessor) (name : String) : Accessor := ⟨a.base, a.keys ++ [name]⟩

/-- The variable that guards and callbacks check. -/
def value : Accessor := ⟨"value", []⟩

/-- How an access to a property is written. -/
def access (name : String) : String := "[" ++ Text.singleQuoted name ++ "]"

/-- How the accessor is written. -/
def text (a : Accessor) : String := a.keys.foldl (fun written key => written ++ access key) a.base

end Accessor

end Script

/-- The expression for the value of a literal type. -/
def Literal.expression : Literal → String
  | .string text => Text.doubleQuoted text
  | .number value => Script.numberExpression value
  | .boolean true => "true"
  | .boolean false => "false"

/-- The value that a factory gives to a member of a primitive kind. -/
def Primitive.zeroValue : Primitive → String
  | .number => "0"
  | .string => "''"
  | .boolean => "false"
  | .bigint => "BigInt(0)"
  | .null => "null"
  | .function => "() => \x7b\x7d"

end InterfaceGuards
