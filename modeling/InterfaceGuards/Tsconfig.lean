/-
  The compiler configuration put beside generated files.

  * `Tsconfig`: what it builds on and the projects it refers to, as seen from its directory.
  * `Tsconfig.ofPaths`: the configuration for a destination.
  * `Tsconfig.text`: how it is written.
-/
import InterfaceGuards.Code.Piece
import InterfaceGuards.Path.Normal
import InterfaceGuards.Text.Quoted

namespace InterfaceGuards

/-- A compiler configuration; its paths lead from its own directory. -/
structure Tsconfig where
  base : String
  references : List String
deriving DecidableEq, Repr

/-- No path leads from one place to another, as just one of them is absolute. -/
structure UnrelatedPaths where
  source : Path
  target : Path
deriving DecidableEq, Repr

/-- The wording of the error. -/
def UnrelatedPaths.message (e : UnrelatedPaths) : String :=
  "cannot reach " ++ e.target.text ++ " from " ++ e.source.text ++
    ": one path is absolute and the other relative"

namespace Tsconfig

/-- A path as written in the configuration of a destination. -/
def relative (destination target : Path) : Except UnrelatedPaths String :=
  match destination.relativeTo? target with
  | some p => .ok p.slashed
  | none => .error ⟨destination, target⟩

/-- The configuration of a destination. -/
def ofPaths (destination base : Path) (references : List Path) :
    Except UnrelatedPaths Tsconfig := do
  let base ← relative destination base
  let references ← references.mapM (relative destination)
  .ok ⟨base, references⟩

/-- The file that holds the configuration of a destination. -/
def path (destination : Path) : Path := destination.join ⟨"tsconfig.json"⟩

/-- How a reference is written. -/
def referenceCode (isLast : Bool) (reference : String) : Code :=
  Code.block "\x7b\n" [.line 0 ("\"path\": " ++ Text.doubleQuoted reference ++ "\n")] "\x7d" ++
    [.raw (if isLast then "\n" else ",\n")]

/-- How several references are written. -/
def referencesCode : List String → Code
  | [] => []
  | r :: rest => referenceCode rest.isEmpty r ++ referencesCode rest

/-- The configuration as a JSON object. -/
def code (t : Tsconfig) : Code :=
  .line 0 "\x7b\n" ::
    .line 1 ("\"extends\": " ++ Text.doubleQuoted t.base ++ ",\n") ::
    (match t.references with
      | [] => [.line 1 "\"references\": []\n"]
      | rs => Code.deeper (Code.block "\"references\": [\n" (referencesCode rs) "]\n")) ++
    [.line 0 "\x7d"]

/-- The text of the configuration. -/
def text (t : Tsconfig) : String := t.code.text .standard

end Tsconfig

end InterfaceGuards
