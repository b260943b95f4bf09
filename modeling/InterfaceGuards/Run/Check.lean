/-
  Checking a project.

  * `Settings.generation`: the outputs that a run of these settings makes.
  * `CheckSummary`: what checking a project finds.
  * `Settings.check`: the check of a project, in which nothing is written.
-/
import InterfaceGuards.Report
import InterfaceGuards.Run.Error
import InterfaceGuards.Settings

namespace InterfaceGuards

/-- The outputs made for the selected units of a project. -/
def Settings.generation (s : Settings) (p : Project) : Except RunError Generation :=
  match s.selection with
  | .error e => .error (.pattern e)
  | .ok selection =>
    match s.layout.generate p.catalog selection.selects with
    | .error e => .error (.generation e)
    | .ok g => .ok g

/-- What checking a project finds. -/
structure CheckSummary where
  manifestPath : Path
  unitCount : Nat
  declarationCount : Nat
  generatedCount : Nat
  functionCount : Nat
  warnings : List String
  infos : List String
deriving DecidableEq, Repr

/-- A finding with its location on a line of its own. -/
def Diagnostic.twoLines (d : Diagnostic) : String :=
  match d.location with
  | some location => d.message ++ "\n  --> " ++ location
  | none => d.message

/-- The number of functions in an output: two for each interface of the unit at its path. -/
def Catalog.functionCount (c : Catalog) (source : Path) : Nat :=
  match c.units.find? fun u => u.path.components == source.components with
  | some u => 2 * u.interfaces.length
  | none => 0

/-- The check of a project. -/
def Settings.check (s : Settings) (p : Project) (manifestPath : Path) :
    Except RunError CheckSummary := do
  let g ← s.generation p
  let (infos, warnings) := g.diagnostics.partition fun d => d.severity = .info
  .ok {
    manifestPath := manifestPath
    unitCount := p.catalog.units.length
    declarationCount := p.catalog.units.foldr (fun u n => u.declarations.length + n) 0
    generatedCount := g.units.length
    functionCount := g.units.foldr (fun u n => p.catalog.functionCount u.source + n) 0
    warnings := warnings.map Diagnostic.twoLines
    infos := infos.map Diagnostic.twoLines }

/-- What a check has to say. -/
def CheckSummary.report (s : CheckSummary) : Report :=
  s.warnings.map .warning ++ s.infos.map (fun info => .preformatted ("info: " ++ info)) ++
    (if s.warnings.isEmpty then [] else [.newline]) ++
    [.preformatted ("✓ " ++ s.manifestPath.text ++ " is valid"), .newline,
      .listItem (Report.counted s.unitCount "unit" ++ ", " ++
        Report.counted s.declarationCount "declaration"),
      .listItem (Report.counted s.generatedCount "unit" ++ " would generate " ++
        Report.counted s.functionCount "function")]

end InterfaceGuards
