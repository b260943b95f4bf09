/-
  Function declarations and import blocks of generated scripts.

  * `Function`: a function declaration; `Function.signature` is its first line.
  * `Import`: a block that imports names from a module.
  * `Helper`: the two functions that guards call.
-/
import InterfaceGuards.Code.Piece
import InterfaceGuards.Text.Split

namespace InterfaceGuards.Script

/-- A parameter of a function. -/
structure Param where
  name : String
  type : String
  optional : Bool
  value : Option String
deriving DecidableEq, Repr

namespace Param

/-- A parameter that has to be given. -/
def required (name type : String) : Param := ⟨name, type, false, none⟩

/-- How a parameter is written. -/
def text (p : Param) : String :=
  p.name ++ (if p.optional then "?" else "") ++ ": " ++ p.type ++
    match p.value with
    | some value => " = " ++ value
    | none => ""

end Param

/-- What a function declaration says before its body. -/
structure Function where
  name : String
  exported : Bool
  generics : List String
  params : List Param
  returns : Option String
deriving DecidableEq, Repr

/-- Type parameters or arguments between angle brackets, if there are any. -/
def angled (names : List String) : String :=
  if names.isEmpty then "" else "<" ++ Text.joinWith ", " names ++ ">"

namespace Function

/-- The line that declares a function, with the brace that opens its body. -/
def signature (f : Function) : String :=
  (if f.exported then "export " else "") ++ "function " ++ f.name ++ angled f.generics ++
    "(" ++ Text.joinWith ", " (f.params.map Param.text) ++ ")" ++
    (match f.returns with
      | some type => ": " ++ type
      | none => "") ++ " \x7b"

/-- The declaration of a function with a body. -/
def code (f : Function) (body : Code) : Code :=
  Code.block (f.signature ++ "\n") body "\x7d\n"

end Function

/-- A block that imports names from a module. -/
structure Import where
  source : String
  names : List String
deriving DecidableEq, Repr

/-- The import block, one name to a line. -/
def Import.code (i : Import) : Code :=
  Code.block "import \x7b\n" (i.names.map fun name => .line 0 (name ++ ",\n")) "\x7d" ++
    [.raw (" from '" ++ i.source ++ "';\n")]

/-- The functions that guards call. -/
inductive Helper where
  | isUnknownObject
  | validateVector
deriving DecidableEq, Repr

namespace Helper

/-- All helpers in the order in which they are defined. -/
def all : List Helper := [.isUnknownObject, .validateVector]

/-- The name of a helper. -/
def id : Helper → String
  | .isUnknownObject => "isUnknownObject"
  | .validateVector => "validateVector"

/-- What a helper's declaration says before its body. -/
def function : Helper → Function
  | .isUnknownObject =>
    ⟨"isUnknownObject", false, [], [.required "value" "unknown"],
      some "value is Record<string,unknown>"⟩
  | .validateVector =>
    ⟨"validateVector", false, ["T"],
      [.required "value" "unknown", .required "validate" "(val: unknown) => boolean"],
      some "value is T[]"⟩

/-- The body of a helper. -/
def body : Helper → Code
  | .isUnknownObject => [.line 0 "return typeof value === 'object' && value !== null;\n"]
  | .validateVector =>
    [.line 0 "if(!Array.isArray(value)) return false;\n",
      .line 0 "for(const i of value) if(!validate(i)) return false;\n",
      .line 0 "return true;\n"]

/-- The definition of a helper. -/
def code (h : Helper) : Code := h.function.code h.body

end Helper

end InterfaceGuards.Script
