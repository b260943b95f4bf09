/-
  Why a run fails.

  * `RunError`: the causes.
  * `RunError.chain`: how an error is shown: what failed, then why, then why that.
-/
import InterfaceGuards.FileTree
import InterfaceGuards.Selection
import InterfaceGuards.Tsconfig
import InterfaceGuards.Unit.Build

namespace InterfaceGuards

/-- Why a run fails. -/
inductive RunError where
  | pattern (source : PatternError)
  | generation (source : GenerateError)
  | tsconfig (source : UnrelatedPaths)
  | holdsManifest (directory manifest : Path)
  | clearing (source : FileError)
  | writing (file : Path) (source : FileError)
deriving DecidableEq, Repr

/-- The wording of an error and of what lies behind it. -/
def GenerateError.chain (e : GenerateError) : List String :=
  match e with
  | .synthesis _ _ source => [e.message, source.message]
  | _ => [e.message]

/-- What is said when the destination cannot be cleared. -/
def RunError.clearingFailed : String := "Failed to prepare the destination directory"

/-- What is said when a file cannot be written. -/
def RunError.writingFailed (file : Path) : String := "Failed to write " ++ file.text

/-- What failed, then why, then why that. -/
def RunError.chain : RunError → List String
  | .pattern source => [source.message]
  | .generation source => "Generation failed" :: source.chain
  | .tsconfig source => ["Failed to build tsconfig.json", source.message]
  | .holdsManifest directory manifest =>
    [clearingFailed,
      "refusing to clear '" ++ directory.text ++ "': it contains '" ++ manifest.text ++ "'"]
  | .clearing source => [clearingFailed, source.message]
  | .writing file source => [writingFailed file, source.message]

/-- The wording of an error. -/
def RunError.message (e : RunError) : String := e.chain.headD ""

end InterfaceGuards
