/-
  Settings of a run.

  * `Settings`: what a run is about, with all paths resolved.
  * `Settings.ofProject`: the settings of a manifest.
  * `Overrides`: the values that a command line puts in their place.
-/
import InterfaceGuards.Manifest.Load
import InterfaceGuards.Selection
import InterfaceGuards.Unit.Generation

namespace InterfaceGuards

/-- What a run is about.  Patterns are compared with paths as seen from `baseDir`. -/
structure Settings where
  baseDir : Path
  rootDir : Path
  destination : Path
  indentWidth : Nat
  includes : List String
  excludes : List String
  baseConfig : Option Path
  references : List Path
deriving DecidableEq, Repr

/-- The values that a command line puts in the place of a manifest's; a list without members
    replaces nothing. -/
structure Overrides where
  output : Option Path := none
  rootDir : Option Path := none
  indentWidth : Option Nat := none
  includes : List String := []
  excludes : List String := []
  baseConfig : Option Path := none
  references : List Path := []
deriving DecidableEq, Repr

namespace Settings

/-- The settings of a manifest. -/
def ofProject (p : Project) : Settings where
  baseDir := p.baseDir
  rootDir := p.rootDir
  destination := p.outputDir
  indentWidth := p.indentWidth
  includes := p.manifest.generator.includes
  excludes := p.manifest.generator.excludes
  baseConfig := p.baseConfig?
  references := p.references

/-- The second list, or the first if it has no members. -/
def replaceWith {α : Type} (old new : List α) : List α := if new.isEmpty then old else new

/-- The settings with a command line's values in place; its paths, too, are seen from the
    manifest's directory. -/
def override (s : Settings) (p : Project) (o : Overrides) : Settings where
  baseDir := s.baseDir
  rootDir := (o.rootDir.map p.resolvePath).getD s.rootDir
  destination := (o.output.map p.resolvePath).getD s.destination
  indentWidth := o.indentWidth.getD s.indentWidth
  includes := replaceWith s.includes o.includes
  excludes := replaceWith s.excludes o.excludes
  baseConfig := (o.baseConfig.map p.resolvePath).or s.baseConfig
  references := replaceWith s.references (o.references.map p.resolvePath)

/-- Where units are, where their output goes, and how it is indented. -/
def layout (s : Settings) : Layout := ⟨s.rootDir, s.destination, .ofWidth s.indentWidth⟩

/-- The units that a run is about. -/
def selection (s : Settings) : Except PatternError Selection :=
  Selection.ofPatterns s.baseDir s.includes s.excludes

end Settings

end InterfaceGuards
