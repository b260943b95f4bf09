/-
  Names that a manifest may declare.

  * `reservedWords`: the words that cannot name a declaration.
  * `identifierFault?`: why a text is no identifier.
  * `Place`: where in a manifest a name stands; `Place.nameError?` refuses it if need be.
-/
import InterfaceGuards.Manifest.Error
import InterfaceGuards.Text.Split

namespace InterfaceGuards.Manifest

open Toml (Spanned)

/-- The reserved words of the language, of its strict mode, and the names of its own types. -/
def reservedWords : List String :=
  ["break", "case", "catch", "class", "const", "continue", "debugger", "default", "delete", "do",
    "else", "enum", "export", "extends", "false", "finally", "for", "function", "if", "import",
    "in", "instanceof", "new", "null", "return", "super", "switch", "this", "throw", "true", "try",
    "typeof", "var", "void", "while", "with",
    "implements", "interface", "let", "package", "private", "protected", "public", "static",
    "yield", "await",
    "any", "boolean", "never", "number", "object", "string", "symbol", "undefined", "unknown",
    "bigint"]

/-- Whether a name is reserved. -/
def isReserved (name : String) : Bool := reservedWords.contains name

/-- Whether an identifier may start with a character. -/
def isIdentifierStart (c : Char) : Bool := c.isAlpha || c == '_' || c == '$'

/-- Whether an identifier may go on with a character. -/
def isIdentifierPart (c : Char) : Bool := c.isAlphanum || c == '_' || c == '$'

/-- Why a name is no identifier. -/
def identifierFault? (name : String) : Option String :=
  match name.toList with
  | [] => some "name cannot be empty"
  | c :: rest =>
    if !isIdentifierStart c then some "name must start with a letter, underscore or '$'"
    else if !rest.all isIdentifierPart then
      some "name must contain only letters, numbers, underscores and '$'"
    else none

/-- Where in a manifest a name stands: the unit, then the declaration. -/
abbrev Place := List String

namespace Place

/-- The text of a place. -/
def text (place : Place) : String := Text.joinWith ": " place

/-- A kind of name with its place. -/
def describe (place : Place) (kind : String) : String :=
  if place.isEmpty then kind else kind ++ " in '" ++ Place.text place ++ "'"

/-- Why a name of some kind may not stand at a place. -/
def nameError? (place : Place) (kind : String) (name : Spanned String) : Option ManifestError :=
  if isReserved name.value then
    some (.reservedWord name.value (describe place kind) (some name.span))
  else
    (identifierFault? name.value).map fun reason =>
      .invalidIdentifier name.value (describe place kind) reason (some name.span)

end Place

end InterfaceGuards.Manifest
