/-
  Generating the files of a project.

  * `Plan`: the files that a run makes.
  * `Settings.plan`: the plan for a project, or why there is none.
  * `Plan.preview`, `Plan.written`: what is reported of it.
  * `Plan.carryOut`: writing the files into a tree.
  * `Settings.generate`: a run, which writes only if everything could be planned.
-/
import InterfaceGuards.Run.Check

namespace InterfaceGuards

/-- A file to be made; its path is seen from the destination. -/
structure OutputFile where
  path : Path
  text : String
deriving DecidableEq, Repr

/-- The files that a run makes, and the findings on the way. -/
structure Plan where
  unitCount : Nat
  warnings : List String
  files : List OutputFile
deriving DecidableEq, Repr

namespace Settings

/-- The compiler configuration beside the outputs, if one is asked for. -/
def tsconfigFiles (s : Settings) : Except UnrelatedPaths (List OutputFile) :=
  match s.baseConfig with
  | none => .ok []
  | some base => do
    let config ← Tsconfig.ofPaths s.destination base s.references
    .ok [⟨⟨"tsconfig.json"⟩, config.text⟩]

/-- The plan for a project. -/
def plan (s : Settings) (p : Project) : Except RunError Plan := do
  let g ← s.generation p
  match s.tsconfigFiles with
  | .error e => .error (.tsconfig e)
  | .ok configs =>
    .ok ⟨g.units.length, g.diagnostics.map Diagnostic.display,
      g.units.map (fun u => ⟨u.outFile, u.contents⟩) ++ configs⟩

end Settings

namespace Plan

/-- What is reported of the files that would be made. -/
def preview (plan : Plan) : Report :=
  plan.warnings.map .warning ++
    plan.files.flatMap (fun f => [.divider f.path.slashed, .preformatted f.text]) ++
    [.divider "Summary",
      .preformatted (toString plan.files.length ++ " files would be generated")]

/-- What is reported of the files that were made. -/
def written (plan : Plan) (destination : Path) : Report :=
  plan.warnings.map .warning ++
    [.keyValue "Generated" destination.text, .keyValue "Units" (toString plan.unitCount),
      .heading ("Files (" ++ toString plan.files.length ++ ")")] ++
    plan.files.map fun f => .addedItem f.path.slashed

end Plan

/-- A run that changes files and may fail on the way; what was done before stays. -/
abbrev RunAction := ExceptT RunError (StateM FileTree)

/-- An action on files as a part of a run. -/
def FileAction.orFail {α : Type} (action : FileAction α) (error : FileError → RunError) :
    RunAction α := do
  match ← action.run with
  | .ok a => pure a
  | .error e => throw (error e)

/-- Makes a directory empty, or makes an empty one; not if it holds the file `keep`.  Both paths are
    absolute. -/
def resetDirectory (directory keep : Path) : RunAction Unit := do
  if keep.startsWith directory then throw (.holdsManifest directory keep)
  if (← get).isPresent directory then (FileTree.removeAll directory).orFail .clearing
  (FileTree.makeDirectories directory).orFail .clearing

namespace OutputFile

/-- Writes the file below a directory, with the directories on the way to it. -/
def write (f : OutputFile) (directory : Path) : FileAction Unit := do
  let path := directory.join f.path
  match path.parent? with
  | none => pure ()
  | some parent => FileTree.makeDirectories parent
  FileTree.write path f.text

end OutputFile

namespace Plan

/-- Writes the files into a directory, which is cleared before. -/
def carryOut (plan : Plan) (directory keep : Path) : RunAction Unit := do
  resetDirectory directory keep
  plan.files.forM fun f => (f.write directory).orFail (.writing f.path)

end Plan

/-- A run for a project whose manifest is `manifestPath`, as seen from the directory `cwd`. -/
def Settings.generate (s : Settings) (p : Project) (cwd manifestPath : Path) (dryRun : Bool) :
    RunAction Report := do
  match s.plan p with
  | .error e => throw e
  | .ok plan =>
    if dryRun then pure plan.preview
    else
      plan.carryOut (s.destination.absoluteFrom cwd) (manifestPath.absoluteFrom cwd)
      pure (plan.written s.destination)

end InterfaceGuards
