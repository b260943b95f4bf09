/-
  Carrying out a command line.

  * `Failure`: why a command line leads to nothing.
  * `CommandLine.loadText`, `loadFile`: the project of a manifest.
  * `CommandLine.execute`: what a command line prints, and the files after it.
-/
import InterfaceGuards.CommandLine.Parser
import InterfaceGuards.Run.Generate

namespace InterfaceGuards.CommandLine

/-- Why a command line leads to nothing. -/
inductive Failure where
  | usage (answer : UsageAnswer)
  | manifest (source : ManifestError)
  | run (source : RunError)
deriving DecidableEq, Repr

/-- The directory that a manifest's paths are seen from, given the directory that the manifest's own
    path is seen from. -/
def manifestDirectory (cwd manifest : Path) : Path :=
  (manifest.parent?.getD .empty).absoluteFrom cwd

/-- The project of a manifest, given its text if it could be read. -/
def loadText (text : Option String) (cwd manifest : Path) : Except ManifestError Project :=
  match text with
  | none => .error (.unreadable manifest)
  | some text => Project.load text (manifestDirectory cwd manifest)

/-- The project of the manifest at a path, as seen from a directory. -/
def loadFile (t : FileTree) (cwd manifest : Path) : Except ManifestError Project :=
  loadText (t.read (cwd.join manifest)).toOption cwd manifest

/-- What a command prints, and the files after it. -/
def Command.execute (command : Command) (cwd : Path) (t : FileTree) :
    Except Failure Printed × FileTree :=
  match command with
  | .completions _ => (.ok ⟨"", ""⟩, t)
  | .check manifest =>
    match loadFile t cwd manifest with
    | .error e => (.error (.manifest e), t)
    | .ok p =>
      match (Settings.ofProject p).check p manifest with
      | .error e => (.error (.run e), t)
      | .ok summary => (.ok summary.report.print, t)
  | .generate manifest overrides dryRun =>
    match loadFile t cwd manifest with
    | .error e => (.error (.manifest e), t)
    | .ok p =>
      let settings := (Settings.ofProject p).override p overrides
      match (settings.generate p cwd manifest dryRun).run.run t with
      | (.error e, t) => (.error (.run e), t)
      | (.ok report, t) => (.ok report.print, t)

/-- What a command line prints in a directory, and the files after it. -/
def execute (arguments : List String) (cwd : Path) (t : FileTree) :
    Except Failure Printed × FileTree :=
  match parse arguments with
  | .error answer => (.error (.usage answer), t)
  | .ok command => command.execute cwd t

end InterfaceGuards.CommandLine
