/-
  Paths of source units and the module specifiers that import them.

  * `Path.isEligible`: whether output is made for a unit: a TypeScript source
    that is not a declaration file.
  * `Path.moduleSpecifier?`: how a file in a directory imports a unit.
-/
import InterfaceGuards.Path.Normal

namespace InterfaceGuards.Path

/-- Whether the path names a file of declarations only (`.d.ts`, `.d.tsx`). -/
def isDeclarationUnit (p : Path) : Bool :=
  match p.fileName? with
  | some name =>
    ".d.ts".toList.isSuffixOf name.toList || ".d.tsx".toList.isSuffixOf name.toList
  | none => false

/-- Whether the path names a TypeScript source (`.ts`, `.tsx`). -/
def isSourceUnit (p : Path) : Bool :=
  match p.extension? with
  | some extension => extension == "ts" || extension == "tsx"
  | none => false

/-- Whether output is made for a unit at this path. -/
def isEligible (p : Path) : Bool := p.isSourceUnit && !p.isDeclarationUnit

/-- The file name of a unit without its last extension. -/
def unitStem (p : Path) : String := p.stem?.getD ""

/-- The extensions that a module specifier leaves out. -/
def sourceExtensions : List String := ["ts", "tsx", "js", "jsx"]

/-- The path without a source extension. -/
def withoutSourceExtension (p : Path) : Path :=
  match p.extension? with
  | some extension => if sourceExtensions.contains extension then p.withoutExtension else p
  | none => p

/-- The specifier that imports `target` from a file in the directory `source`.  It starts with
    `./` unless the path that leads there starts with two dots. -/
def moduleSpecifier? (source target : Path) : Option String :=
  (source.relativeTo? target.withoutSourceExtension).map fun relative =>
    let joined := relative.slashed
    if ['.', '.'].isPrefixOf joined.toList then joined else "./" ++ joined

end InterfaceGuards.Path
