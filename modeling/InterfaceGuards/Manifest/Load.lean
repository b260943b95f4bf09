/-
  Loading manifests.

  * `Project`: a manifest in its directory, with its declarations.
  * `Project.load`: the project that the text of a manifest describes, or why there is none.
  * `Project.rootDir`, `outputDir`, …: the settings with their paths resolved.

  The form of all units is checked before any type expression is read.
-/
import InterfaceGuards.Declaration
import InterfaceGuards.Manifest.Violation
import InterfaceGuards.Toml.Document
import InterfaceGuards.TypeExpr.Parser

namespace InterfaceGuards

open Toml (Span Spanned)

/-- A manifest in its directory, with its declarations. -/
structure Project where
  manifest : Manifest
  baseDir : Path
  catalog : Catalog
deriving Repr

namespace Manifest

/-- A path as seen from the manifest's directory. -/
def resolvePath (baseDir p : Path) : Path := if p.isAbsolute then p else baseDir.join p

/-- The place in a quoted string at which a problem is shown: so many bytes after its opening
    quote, but not after its closing quote. -/
def problemSpan (span : Span) (offset : Nat) : Span :=
  let start := min (span.start + 1 + offset) (span.stop - 1)
  ⟨start, start + 1⟩

/-- The type that an expression denotes. -/
def readType (scope : TypeExpr.Scope) (source : Spanned String) : Except ManifestError TypeExpr :=
  match TypeExpr.parse scope source.value with
  | .ok type => .ok type
  | .error e =>
    .error (.typeExpression source.value e.problem.message
      (some (problemSpan source.span e.offset)))

/-- The member that an entry declares. -/
def readMember (scope : TypeExpr.Scope) (m : MemberEntry) : Except ManifestError Member := do
  let type ← m.type.mapM (readType scope)
  .ok ⟨m.name.map Spanned.value, type, m.optional, m.kind⟩

/-- The interface or class that an entry declares. -/
def readStructure (unit : Path) (kind : DeclarationKind) (d : StructureEntry) :
    Except ManifestError Declaration := do
  let params := d.typeParams.map Spanned.value
  let members ← d.members.mapM (readMember ⟨params, some unit⟩)
  .ok ⟨d.name.value, kind, params, members⟩

/-- The alias that an entry declares. -/
def readAlias (unit : Path) (d : AliasEntry) : Except ManifestError Declaration := do
  let params := d.typeParams.map Spanned.value
  let target ← readType ⟨params, some unit⟩ d.type
  .ok ⟨d.name.value, .alias target, params, []⟩

/-- The unit that an entry describes. -/
def readUnit (baseDir : Path) (u : UnitEntry) : Except ManifestError SourceUnit := do
  let path := resolvePath baseDir ⟨u.path.value⟩
  let interfaces ← u.interfaces.mapM (readStructure path .interfaceType)
  let classes ← u.classes.mapM (readStructure path .classType)
  let aliases ← u.aliases.mapM (readAlias path)
  .ok ⟨path, interfaces ++ classes ++ aliases⟩

/-- The project of a manifest in a directory. -/
def toProject (m : Manifest) (baseDir : Path) : Except ManifestError Project :=
  match m.violations with
  | e :: _ => .error e
  | [] => do
    let units ← m.units.mapM (readUnit baseDir)
    .ok ⟨m, baseDir, ⟨units⟩⟩

end Manifest

namespace Project

/-- The project that the text of a manifest in a directory describes. -/
def load (text : String) (baseDir : Path) : Except ManifestError Project :=
  match (Toml.parse? text).bind Manifest.ofToml? with
  | none => .error .malformed
  | some m => m.toProject baseDir

/-- A path as seen from the manifest's directory. -/
def resolvePath (p : Project) (path : Path) : Path := Manifest.resolvePath p.baseDir path

/-- The directory below which units are looked for. -/
def rootDir (p : Project) : Path := p.resolvePath (p.manifest.generator.rootDir.getD ⟨"."⟩)

/-- The directory that output goes to. -/
def outputDir (p : Project) : Path := p.resolvePath (p.manifest.generator.output.getD ⟨"schema"⟩)

/-- The width of one level of indentation; zero stands for tabs. -/
def indentWidth (p : Project) : Nat := p.manifest.generator.indent.getD 4

/-- The compiler configuration that the generated one builds on. -/
def baseConfig? (p : Project) : Option Path := p.manifest.generator.base.map p.resolvePath

/-- The projects that the generated configuration refers to. -/
def references (p : Project) : List Path := p.manifest.generator.references.map p.resolvePath

end Project

end InterfaceGuards
