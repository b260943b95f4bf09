/-
  Why a manifest is refused.

  * `ManifestError`: the causes.
  * `ManifestError.message`, `code?`, `help?`, `labels`: how an error is shown.
-/
import InterfaceGuards.Path.Basic
import InterfaceGuards.Toml.Value
import InterfaceGuards.TypeExpr.Token

namespace InterfaceGuards

open Toml (Span)

/-- A note on a part of the manifest's text, from a byte on. -/
structure Label where
  text : String
  offset : Nat
  length : Nat
deriving DecidableEq, Repr

/-- A note on a span. -/
def Label.on (text : String) (span : Span) : Label := ⟨text, span.start, span.stop - span.start⟩

/-- Why a manifest is refused. -/
inductive ManifestError where
  | unreadable (path : Path)
  | malformed
  | duplicate (what name : String) (first second : Span)
  | typeExpression (source problem : String) (span : Option Span)
  | invalid (message : String) (span : Option Span)
  | reservedWord (name context : String) (span : Option Span)
  | invalidIdentifier (name context reason : String) (span : Option Span)
deriving DecidableEq, Repr

namespace ManifestError

/-- The wording of an error. -/
def message : ManifestError → String
  | .unreadable path => "failed to read '" ++ path.text ++ "'"
  | .malformed => "failed to parse manifest"
  | .duplicate what name _ _ => "duplicate " ++ what ++ " '" ++ name ++ "'"
  | .typeExpression source _ _ => "invalid type expression '" ++ source ++ "'"
  | .invalid message _ => message
  | .reservedWord name _ _ => "'" ++ name ++ "' is a reserved word"
  | .invalidIdentifier name context _ _ => "invalid " ++ context ++ " name '" ++ name ++ "'"

/-- The code that identifies the kind of error. -/
def code? : ManifestError → Option String
  | .unreadable _ => none
  | .malformed => some "shapegen::parse_error"
  | .duplicate .. => some "shapegen::duplicate"
  | .typeExpression .. => some "shapegen::invalid_type"
  | .invalid .. => some "shapegen::validation_error"
  | .reservedWord .. => none
  | .invalidIdentifier .. => none

/-- What can be done about an error. -/
def help? : ManifestError → Option String
  | .unreadable _ =>
    some "pass --manifest <FILE> or create a shapes.toml in the current directory"
  | .malformed => none
  | .duplicate what _ _ _ =>
    some ("each " ++ what ++ " must be declared once; remove or rename one of them")
  | .typeExpression .. =>
    some ("supported: number, string, boolean, bigint, null, Function, literals, T[], Array<T>, "
      ++ "unions, \x7b a: T \x7d objects, (..) => T and named types")
  | .invalid .. => none
  | .reservedWord name context _ =>
    some ("rename '" ++ name ++ "'; " ++ context ++ " names become TypeScript identifiers")
  | .invalidIdentifier _ _ reason _ =>
    some (reason ++ ". Use only letters, numbers, underscores and '$', not starting with a number.")

/-- The notes on the manifest's text. -/
def labels : ManifestError → List Label
  | .unreadable _ => []
  | .malformed => []
  | .duplicate _ _ first second =>
    [.on "first declared here" first, .on "declared again here" second]
  | .typeExpression _ problem span => (span.map (Label.on problem)).toList
  | .invalid message span => (span.map (Label.on message)).toList
  | .reservedWord _ _ span => (span.map (Label.on "reserved word used here")).toList
  | .invalidIdentifier _ _ _ span => (span.map (Label.on "invalid identifier")).toList

end ManifestError

end InterfaceGuards
