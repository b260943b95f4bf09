/-
  Building the output of a unit.

  * `Layout`: where units are and where their output goes.
  * `Layout.build`: the output made for a unit, or why there is none.

  Every interface of the unit gets a factory and a guard, in order.  The output
  goes to the place below the destination at which the unit is below the root.
-/
import InterfaceGuards.Path.SourceUnit
import InterfaceGuards.Synthesis.Default
import InterfaceGuards.Synthesis.Guard
import InterfaceGuards.Text.Capital
import InterfaceGuards.Unit.Script

namespace InterfaceGuards

open Script (Accessor)

/-- Where units are, where their output goes, and how it is indented. -/
structure Layout where
  rootDir : Path
  destination : Path
  indent : Code.Indent
deriving DecidableEq, Repr

/-- Why no output can be made. -/
inductive GenerateError where
  | synthesis (unit : Path) (declaration : String) (source : SynthesisError)
  | endless (unit : Path) (declaration : String)
  | outsideRoot (unit root : Path)
  | invalidUnitPath (unit : Path)
  | unrelatedPaths (source target : Path)
deriving DecidableEq, Repr

/-- The wording of an error. -/
def GenerateError.message : GenerateError → String
  | .synthesis unit declaration _ =>
    "failed to generate `" ++ declaration ++ "` in " ++ unit.text
  | .endless unit declaration =>
    "the members of `" ++ declaration ++ "` in " ++ unit.text ++ " have no end"
  | .outsideRoot unit root =>
    "unit " ++ unit.text ++ " is outside the root directory " ++ root.text
  | .invalidUnitPath unit => "unit path " ++ unit.text ++ " has no file name"
  | .unrelatedPaths source target =>
    "cannot import " ++ target.text ++ " from " ++ source.text ++
      ": one path is absolute and the other relative"

/-- What was made for a unit. -/
structure GeneratedUnit where
  source : Path
  outFile : Path
  typePrefix : String
  script : UnitScript
  requirements : Requirements
  contents : String
deriving Repr

/-- Whether there is nothing in the output. -/
def GeneratedUnit.isEmpty (u : GeneratedUnit) : Bool := u.contents.isEmpty

namespace Scope

/-- The factory and the guard of an interface. -/
def interfaceScript (s : Scope) (d : Declaration) : Synthesis InterfaceScript := do
  let inside := (s.within d.name).expand d.name
  let record ← inside.recordOf d.members (some "params") (some d.typeName)
  let checks ← inside.objectChecksOf .value d.members
  pure ⟨d, record, checks⟩

/-- The factories and guards of several interfaces, and the notes made on the way; or the error
    for the first interface that has none. -/
def interfaceScripts (s : Scope) :
    List Declaration → Except GenerateError (List InterfaceScript × Notes)
  | [] => .ok ([], .empty)
  | d :: ds =>
    let made := s.interfaceScript d
    match made.outcome with
    | .error e => .error (.synthesis s.unit.path d.name e)
    | .endless => .error (.endless s.unit.path d.name)
    | .value script =>
      match interfaceScripts s ds with
      | .error e => .error e
      | .ok (scripts, notes) => .ok (script :: scripts, made.notes ++ notes)

end Scope

namespace Layout

/-- The place of a unit's output below the destination. -/
def outFile (l : Layout) (unit : Path) : Except GenerateError Path :=
  match unit.fileName? with
  | none => .error (.invalidUnitPath unit)
  | some name =>
    match (unit.parent?.getD .empty).below? l.rootDir with
    | none => .error (.outsideRoot unit l.rootDir)
    | some directory => .ok (directory.join ⟨name⟩)

/-- The directory that a file below the destination lies in. -/
def directoryOf (l : Layout) (outFile : Path) : Path :=
  l.destination.join (outFile.parent?.getD .empty)

/-- The import blocks for what is needed of other files. -/
def importBlocks (directory : Path) :
    List (String × List String) → Except GenerateError (List Script.Import)
  | [] => .ok []
  | (source, symbols) :: rest => do
    match directory.moduleSpecifier? ⟨source⟩ with
    | none => .error (.unrelatedPaths directory ⟨source⟩)
    | some specifier =>
      let blocks ← importBlocks directory rest
      .ok (⟨specifier, symbols⟩ :: blocks)

/-- What is needed for the interfaces of a unit, given the helpers their guards call. -/
def requirements (unit : SourceUnit) (helpers : List Script.Helper) : Requirements :=
  let needed := unit.interfaces.foldl (fun r d => r.requireImport unit.path [d.name])
    Requirements.none
  helpers.foldl Requirements.requireHelper needed

/-- The output for a unit, with the warnings raised on the way. -/
def build (l : Layout) (catalog : Catalog) (unit : SourceUnit) :
    Except GenerateError (GeneratedUnit × List Diagnostic) := do
  let outFile ← l.outFile unit.path
  let (interfaces, notes) ← (Scope.start catalog unit).interfaceScripts unit.interfaces
  let needed := requirements unit notes.helpers
  let imports ← importBlocks (l.directoryOf outFile) needed.imports.entries
  let script : UnitScript := ⟨imports, needed.helpers, interfaces⟩
  .ok ({
    source := unit.path
    outFile := outFile
    typePrefix := Text.capitalize unit.path.unitStem
    script := script
    requirements := needed
    contents := script.code.text l.indent }, notes.warnings)

end Layout

end InterfaceGuards
