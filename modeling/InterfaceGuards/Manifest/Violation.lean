/-
  What is wrong with a manifest.

  * `Manifest.violations`: everything that is wrong with its form, in the order of the entries.

  Paths of units are not blank and not repeated; declarations have proper names,
  which no other declaration of the unit has; so have type parameters; members
  are not repeated.
-/
import InterfaceGuards.Manifest.Entry
import InterfaceGuards.Manifest.Name
import InterfaceGuards.Text.Blank

namespace InterfaceGuards.Manifest

open Toml (Spanned)

/-- The error that a name was there before. -/
def repetition? (what : String) (before : List (Spanned String)) (name : Spanned String) :
    Option ManifestError :=
  (before.find? (·.value == name.value)).map fun first =>
    .duplicate what name.value first.span name.span

/-- What is wrong with each of several things, given those before it. -/
def inOrder {α : Type} (wrong : List α → α → List ManifestError) : (before : List α) → List α →
    List ManifestError
  | _, [] => []
  | before, x :: xs => wrong before x ++ inOrder wrong (before ++ [x]) xs

/-- What is wrong with type parameters. -/
def paramViolations (place : Place) (params : List (Spanned String)) : List ManifestError :=
  inOrder (fun before param =>
    (place.nameError? "type parameter" param).toList ++
      (repetition? "type parameter" before param).toList) [] params

/-- What is wrong with members: only that one of them is repeated. -/
def memberViolations (members : List MemberEntry) : List ManifestError :=
  inOrder (fun before name => (repetition? "member" before name).toList) []
    (members.filterMap MemberEntry.name)

/-- A declaration with what its form depends on. -/
structure Declared where
  kind : String
  name : Spanned String
  typeParams : List (Spanned String)
  members : List MemberEntry
deriving Repr

/-- The declarations of a unit: interfaces, then classes, then aliases. -/
def declared (u : UnitEntry) : List Declared :=
  u.interfaces.map (fun d => ⟨"interface", d.name, d.typeParams, d.members⟩) ++
    u.classes.map (fun d => ⟨"class", d.name, d.typeParams, d.members⟩) ++
    u.aliases.map (fun d => ⟨"alias", d.name, d.typeParams, []⟩)

/-- What is wrong with the declarations of a unit. -/
def unitViolations (u : UnitEntry) : List ManifestError :=
  inOrder (fun before d =>
    (Place.nameError? [u.path.value] d.kind d.name).toList ++
      (repetition? "declaration" (before.map Declared.name) d.name).toList ++
      paramViolations [u.path.value, d.name.value] d.typeParams ++
      memberViolations d.members) [] (declared u)

/-- Everything that is wrong with the form of a manifest, in the order of its entries. -/
def violations (m : Manifest) : List ManifestError :=
  inOrder (fun before u =>
    (if Text.isBlank u.path.value then
      [.invalid "unit path cannot be empty" (some u.path.span)] else []) ++
      (repetition? "unit" (before.map UnitEntry.path) u.path).toList ++
      unitViolations u) [] m.units

end InterfaceGuards.Manifest
