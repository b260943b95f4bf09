/-
  Statements of type guards.

  * `Check`: a statement that returns `false` unless a value has a property.
  * `Check.code`: how it is written.
-/
import InterfaceGuards.Script.Function
import InterfaceGuards.Script.Name

namespace InterfaceGuards.Script

/-- A statement that returns `false` unless what an accessor denotes passes a check.

    The checks on an array are made for `value`, which stands for each element in turn; the checks
    of an alternative are made in a function of their own. -/
inductive Check where
  | isDate (subject : Accessor)
  | isObject (subject : Accessor)
  | passesGuard (type : String) (subject : Accessor)
  | everyElement (subject : Accessor) (checks : List Check)
  | someAlternative (alternatives : List (List Check))
  | whenPresent (subject : Accessor) (checks : List Check)
  | equals (subject : Accessor) (value : Literal)
  | isNull (subject : Accessor)
  | hasKind (subject : Accessor) (kind : Primitive)
deriving Repr

/-- A statement that returns `false` unless a condition holds. -/
def refuseUnless (condition : String) : Code :=
  [.line 0 ("if(!" ++ condition ++ ") return false;\n")]

/-- The statement that ends a function whose checks have all passed. -/
def returnTrue : Code := [.line 0 "return true;\n"]

mutual

/-- The code of a statement. -/
def Check.code : Check → Code
  | .isDate subject => refuseUnless ("(" ++ subject.text ++ " instanceof Date)")
  | .isObject subject => refuseUnless (Helper.isUnknownObject.id ++ "(" ++ subject.text ++ ")")
  | .passesGuard type subject => refuseUnless (guardName type ++ "(" ++ subject.text ++ ")")
  | .everyElement subject checks =>
    Code.block ("if(!" ++ Helper.validateVector.id ++ "(" ++ subject.text ++ ", value => \x7b\n")
      (Check.codeAll checks ++ returnTrue) "\x7d)) return false;\n"
  | .someAlternative alternatives =>
    Code.block "if(\n" (Check.alternativesCode alternatives) ") return false;\n"
  | .whenPresent subject checks =>
    Code.block ("if(" ++ subject.text ++ " !== undefined) \x7b\n") (Check.codeAll checks) "\x7d\n"
  | .equals subject value =>
    refuseUnless ("(" ++ subject.text ++ " === " ++ value.expression ++ ")")
  | .isNull subject => refuseUnless ("(" ++ subject.text ++ " === null)")
  | .hasKind subject kind =>
    refuseUnless ("(typeof " ++ subject.text ++ " === '" ++ kind.name ++ "')")

/-- The code of several statements. -/
def Check.codeAll : List Check → Code
  | [] => []
  | check :: checks => check.code ++ Check.codeAll checks

/-- The condition that no alternative passes. -/
def Check.alternativesCode : List (List Check) → Code
  | [] => []
  | checks :: rest =>
    Code.block "!(() => \x7b\n" (Check.codeAll checks ++ returnTrue) "\x7d)()" ++
      .raw (if rest.isEmpty then "\n" else " &&\n") :: Check.alternativesCode rest

end

end InterfaceGuards.Script
