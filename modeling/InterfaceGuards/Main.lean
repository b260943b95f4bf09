/-
  The program.

  Reads the command line and the manifest, prints what the library answers, and
  writes the files of a plan.  What is to be done is decided by the library.
-/
import InterfaceGuards.CommandLine.Execution

namespace InterfaceGuards

open CommandLine (Command UsageAnswer)

/-- What is said in answer to a command line that asks for no command. -/
def CommandLine.UsageAnswer.text : UsageAnswer → String
  | .help => "usage: shapegen [-v] (generate | check | completions SHELL) [OPTIONS]"
  | .version => "shapegen 0.1.0"
  | .noArguments => "usage: shapegen [-v] (generate | check | completions SHELL) [OPTIONS]"
  | .missingCommand => "error: a command is required"
  | .unknownCommand => "error: unrecognized command"
  | .unknownArgument => "error: unexpected argument"
  | .invalidValue => "error: a value is missing or not allowed"
  | .rejectedValue => "error: a value does not have the form that is needed"
  | .repeatedArgument => "error: an argument cannot be used multiple times"
  | .superfluousValue => "error: unexpected value for a flag"
  | .missingArgument => "error: a required argument was not provided"

/-- Answers a command line that asks for no command; asking for help or the version is no error. -/
def answerUsage (answer : UsageAnswer) : IO UInt32 := do
  if answer = .help ∨ answer = .version then
    IO.println answer.text
    return 0
  else
    IO.eprintln answer.text
    return 2

/-- Prints an error with what lies behind it. -/
def printFailure (chain : List String) : IO UInt32 := do
  IO.eprintln ("Error: " ++ Text.joinWith "\nCaused by: " chain)
  return 1

/-- Prints a report. -/
def printReport (report : Report) : IO UInt32 := do
  let printed := report.print
  (← IO.getStderr).putStr printed.warnings
  (← IO.getStdout).putStr printed.output
  return 0

/-- Runs an action on files; if it fails, says what failed and why. -/
def attempt (headline : String) (action : IO Unit) (next : IO UInt32) : IO UInt32 := do
  match ← action.toBaseIO with
  | .ok () => next
  | .error e => printFailure [headline, toString e]

/-- Writes the files of a plan below a directory, one after the other. -/
def writeFiles (directory : Path) (next : IO UInt32) : List OutputFile → IO UInt32
  | [] => next
  | f :: rest =>
    let path := directory.join f.path
    let action : IO Unit := do
      IO.FS.createDirAll (path.parent?.getD directory).text
      IO.FS.writeFile path.text f.text
    attempt (RunError.writingFailed f.path) action (writeFiles directory next rest)

/-- Clears the destination and writes the files of a plan. -/
def carryOut (plan : Plan) (directory keep : Path) (report : Report) : IO UInt32 := do
  if keep.startsWith directory then printFailure (RunError.holdsManifest directory keep).chain
  else
    let reset : IO Unit := do
      match ← (IO.FS.removeDirAll directory.text).toBaseIO with
      | .ok () => pure ()
      | .error (.noFileOrDirectory ..) => pure ()
      | .error e => throw e
      IO.FS.createDirAll directory.text
    attempt RunError.clearingFailed reset
      (writeFiles directory (printReport report) plan.files)

/-- Reads the manifest and goes on with its project. -/
def withManifest (cwd manifest : Path) (next : Project → IO UInt32) : IO UInt32 := do
  let text ← (IO.FS.readFile (cwd.join manifest).text).toBaseIO
  match CommandLine.loadText (text.toOption) cwd manifest with
  | .error e =>
    let code ← printFailure [e.message]
    e.help?.forM fun help => IO.eprintln ("help: " ++ help)
    return code
  | .ok p => next p

/-- Runs a command. -/
def runCommand (cwd : Path) : Command → IO UInt32
  | .completions _ => return 0
  | .check manifest =>
    withManifest cwd manifest fun p =>
      match (Settings.ofProject p).check p manifest with
      | .error e => printFailure e.chain
      | .ok summary => printReport summary.report
  | .generate manifest overrides dryRun =>
    withManifest cwd manifest fun p =>
      let settings := (Settings.ofProject p).override p overrides
      match settings.plan p with
      | .error e => printFailure e.chain
      | .ok plan =>
        if dryRun then printReport plan.preview
        else
          carryOut plan (settings.destination.absoluteFrom cwd) (manifest.absoluteFrom cwd)
            (plan.written settings.destination)

end InterfaceGuards

/-- The program: its exit code is 0 if the command was carried out, 1 if it failed and 2 if the
    command line asks for none. -/
def main (arguments : List String) : IO UInt32 := do
  let cwd : InterfaceGuards.Path := ⟨(← IO.currentDir).toString⟩
  match InterfaceGuards.CommandLine.parse arguments with
  | .error answer => InterfaceGuards.answerUsage answer
  | .ok command => InterfaceGuards.runCommand cwd command
