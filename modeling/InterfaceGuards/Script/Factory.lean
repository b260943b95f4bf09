/-
  Expressions for default values.

  * `Expr`: the expressions that factories are made of.
  * `Expr.code`: how an expression is written.
-/
import InterfaceGuards.Script.Function
import InterfaceGuards.Script.Name

namespace InterfaceGuards.Script

/-- An expression for a default value.

    A record is a frozen object with one entry per member; it may end with the entries of another
    object and may be cast to a type. -/
inductive Expr where
  | newDate
  | emptyArray
  | literal (value : Literal)
  | zero (kind : Primitive)
  | undefined
  | record (entries : List (String × Expr)) (spread cast : Option String)
deriving Repr

/-- The comma after a record's entry, if anything follows the entry, and the line's end. -/
def entryEnd (isLast : Bool) : Code := if isLast then [.raw "\n"] else [.raw ",", .raw "\n"]

/-- The last line of a record's entries, for the entries of another object. -/
def spreadCode : Option String → Code
  | some object => [.line 1 ("..." ++ object ++ "\n")]
  | none => []

/-- The cast at the end of a record. -/
def castCode : Option String → Code
  | some type => [.raw (" as " ++ type)]
  | none => []

mutual

/-- The code of an expression.  It goes on where it stands; the lines of a record follow. -/
def Expr.code : Expr → Code
  | .newDate => [.raw "new Date(0)"]
  | .emptyArray => [.raw "[]"]
  | .literal value => [.raw value.expression]
  | .zero kind => [.raw kind.zeroValue]
  | .undefined => [.raw "undefined"]
  | .record entries spread cast =>
    .raw "Object.freeze(Object.seal(\x7b\n" :: Expr.entriesCode spread.isNone entries ++
      spreadCode spread ++ .line 0 "\x7d" :: castCode cast ++ [.raw "))"]

/-- The code of a record's entries, which end the record or do not. -/
def Expr.entriesCode (atEnd : Bool) : List (String × Expr) → Code
  | [] => []
  | (name, value) :: rest =>
    .line 1 (Text.doubleQuoted name ++ ": ") :: Code.deeper value.code ++
      entryEnd (atEnd && rest.isEmpty) ++ Expr.entriesCode atEnd rest

end

end InterfaceGuards.Script
