/-
  Manifests as they are written.

  * `Manifest`: the generator's settings and the units with their declarations.
  * `Manifest.ofToml?`: reads a manifest from a TOML table.

  Everything that is not said to be optional has to be there, and nothing else
  may be.  A table may also be written as an array of its values in the order of
  its fields; then only fields with a default may be missing at the end, and
  what follows the last field is not looked at.
-/
import InterfaceGuards.Toml.Value
import InterfaceGuards.TypeExpr.Basic

namespace InterfaceGuards

open Toml (Spanned Value)

/-- The settings of the generator. -/
structure GeneratorEntry where
  rootDir : Option Path
  output : Option Path
  indent : Option Nat
  base : Option Path
  references : List Path
  includes : List String
  excludes : List String
deriving DecidableEq, Repr

/-- A member of an interface or class. -/
structure MemberEntry where
  name : Option (Spanned String)
  type : Option (Spanned String)
  optional : Bool
  kind : MemberKind
deriving DecidableEq, Repr

/-- An interface or a class. -/
structure StructureEntry where
  name : Spanned String
  typeParams : List (Spanned String)
  members : List MemberEntry
deriving DecidableEq, Repr

/-- An alias. -/
structure AliasEntry where
  name : Spanned String
  type : Spanned String
  typeParams : List (Spanned String)
deriving DecidableEq, Repr

/-- A unit. -/
structure UnitEntry where
  path : Spanned String
  interfaces : List StructureEntry
  classes : List StructureEntry
  aliases : List AliasEntry
deriving DecidableEq, Repr

/-- A manifest. -/
structure Manifest where
  generator : GeneratorEntry
  units : List UnitEntry
deriving DecidableEq, Repr

/-! ## Reading from TOML -/

namespace Manifest

/-- Settings of which nothing is said. -/
def noSettings : GeneratorEntry := ⟨none, none, none, none, [], [], []⟩

/-- The fields of a table, or of an array that stands for one. -/
structure Fields where
  byName : Bool
  values : List (String × Value)
deriving Repr

namespace Fields

/-- The fields of a value that has no others than the given ones. -/
def ofValue? (names : List String) : Value → Option Fields
  | .table _ entries =>
    if entries.all fun (key, _) => names.contains key then some ⟨true, entries⟩ else none
  | .array _ items => some ⟨false, names.zip items⟩
  | _ => none

/-- The value of a field. -/
def get? (f : Fields) (name : String) : Option Value := f.values.lookup name

/-- A field that has to be there. -/
def required? {α : Type} (f : Fields) (name : String) (read : Value → Option α) : Option α :=
  (f.get? name).bind read

/-- A field that has a default. -/
def withDefault? {α : Type} (f : Fields) (name : String) (read : Value → Option α) (default : α) :
    Option α :=
  match f.get? name with
  | none => some default
  | some v => read v

/-- A field that may be missing from a table, but not from an array. -/
def optional? {α : Type} (f : Fields) (name : String) (read : Value → Option α) :
    Option (Option α) :=
  match f.get? name with
  | none => if f.byName then some none else none
  | some v => (read v).map some

end Fields

/-- A string. -/
def text? : Value → Option String
  | .string text _ => some text
  | _ => none

/-- A string with its place. -/
def spanned? : Value → Option (Spanned String)
  | .string text span => some ⟨text, span⟩
  | _ => none

/-- A path. -/
def path? (v : Value) : Option Path := (text? v).map Path.mk

/-- A truth value. -/
def boolean? : Value → Option Bool
  | .boolean b => some b
  | _ => none

/-- A whole number from 0 to 255. -/
def byte? : Value → Option Nat
  | .integer n => if 0 ≤ n ∧ n ≤ 255 then some n.toNat else none
  | _ => none

/-- A list. -/
def list? {α : Type} (read : Value → Option α) : Value → Option (List α)
  | .array _ items => items.mapM read
  | _ => none

/-- The kind of member that a word names. -/
def kindNamed? : String → Option MemberKind
  | "property" => some .property
  | "method" => some .method
  | "index" => some .index
  | _ => none

/-- A kind of member: a word, or a table whose only key is the word and whose value is empty. -/
def kind? : Value → Option MemberKind
  | .string word _ => kindNamed? word
  | .table _ [(word, .array _ [])] => kindNamed? word
  | .table _ [(word, .table _ [])] => kindNamed? word
  | _ => none

/-- The settings of the generator. -/
def generator? (v : Value) : Option GeneratorEntry := do
  let f ← Fields.ofValue?
    ["root-dir", "output", "indent", "extends", "references", "include", "exclude"] v
  some {
    rootDir := ← f.optional? "root-dir" path?
    output := ← f.optional? "output" path?
    indent := ← f.optional? "indent" byte?
    base := ← f.optional? "extends" path?
    references := ← f.withDefault? "references" (list? path?) []
    includes := ← f.withDefault? "include" (list? text?) []
    excludes := ← f.withDefault? "exclude" (list? text?) [] }

/-- A member. -/
def member? (v : Value) : Option MemberEntry := do
  let f ← Fields.ofValue? ["name", "type", "optional", "kind"] v
  some {
    name := ← f.optional? "name" spanned?
    type := ← f.optional? "type" spanned?
    optional := ← f.withDefault? "optional" boolean? false
    kind := ← f.withDefault? "kind" kind? .property }

/-- An interface or a class. -/
def structure? (v : Value) : Option StructureEntry := do
  let f ← Fields.ofValue? ["name", "type-params", "members"] v
  some {
    name := ← f.required? "name" spanned?
    typeParams := ← f.withDefault? "type-params" (list? spanned?) []
    members := ← f.withDefault? "members" (list? member?) [] }

/-- An alias. -/
def alias? (v : Value) : Option AliasEntry := do
  let f ← Fields.ofValue? ["name", "type", "type-params"] v
  some {
    name := ← f.required? "name" spanned?
    type := ← f.required? "type" spanned?
    typeParams := ← f.withDefault? "type-params" (list? spanned?) [] }

/-- A unit. -/
def unit? (v : Value) : Option UnitEntry := do
  let f ← Fields.ofValue? ["path", "interfaces", "classes", "aliases"] v
  some {
    path := ← f.required? "path" spanned?
    interfaces := ← f.withDefault? "interfaces" (list? structure?) []
    classes := ← f.withDefault? "classes" (list? structure?) []
    aliases := ← f.withDefault? "aliases" (list? alias?) [] }

/-- The manifest that a table is. -/
def ofToml? (entries : Toml.Entries) : Option Manifest := do
  let f ← Fields.ofValue? ["generator", "units"] (.table .headed entries)
  some {
    generator := ← f.withDefault? "generator" generator? noSettings
    units := ← f.withDefault? "units" (list? unit?) [] }

end Manifest

end InterfaceGuards
