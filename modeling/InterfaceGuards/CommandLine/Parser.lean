/-
  Reading a command line.

  * `Reading`: the arguments recorded so far, and the one that still waits for its value.
  * `CommandLine.parse`: the command that the arguments ask for.

  An option whose value is the next argument is recorded only when another
  option comes or the arguments end; until then an argument that is no option
  of the command is answered first.
-/
import InterfaceGuards.CommandLine.Basic

namespace InterfaceGuards.CommandLine

/-- How far a command line was read. -/
structure Reading where
  /-- The arguments recorded, in order. -/
  recorded : List (Parameter × String) := []
  /-- An argument that is not recorded yet, with its value if that was met. -/
  pending : Option (OptionSpec × Option String) := none
  /-- Whether all that follows are values. -/
  onlyValues : Bool := false
deriving Repr

/-- What reading gives: how far it came, or why there is no command. -/
abbrev Answered := Except UsageAnswer

/-- The number that a text of digits writes, with or without a sign. -/
def integer? (text : String) : Option Int :=
  let digits (cs : List Char) : Option Nat :=
    if cs.isEmpty || !cs.all Char.isDigit then none
    else some (cs.foldl (fun n c => 10 * n + (c.toNat - '0'.toNat)) 0)
  match text.toList with
  | '-' :: rest => (digits rest).map fun n => -(n : Int)
  | '+' :: rest => (digits rest).map Int.ofNat
  | cs => (digits cs).map Int.ofNat

/-- The number from 0 to 255 that a text writes. -/
def byte? (text : String) : Option Nat :=
  (integer? text).bind fun n => if 0 ≤ n ∧ n ≤ 255 then some n.toNat else none

/-- What is wrong with a value of a given form. -/
def ValueForm.problem? (form : ValueForm) (value : String) : Option UsageAnswer :=
  match form with
  | .text => none
  | .path => if value.isEmpty then some .invalidValue else none
  | .byte => if (byte? value).isSome then none else some .rejectedValue
  | .shell => if shells.contains value then none else some .invalidValue

namespace Reading

/-- Whether a parameter is recorded. -/
def has (r : Reading) (p : Parameter) : Bool := r.recorded.any fun a => a.1 = p

/-- The values recorded for a parameter. -/
def all (r : Reading) (p : Parameter) : List String :=
  (r.recorded.filter fun a => a.1 = p).map Prod.snd

/-- The first value recorded for a parameter. -/
def first? (r : Reading) (p : Parameter) : Option String := (r.all p).head?

/-- The reading with an argument recorded.  A value has to be there; then no second one, where one
    is enough; then it has to have its form. -/
def record (r : Reading) (o : OptionSpec) (value : Option String) : Answered Reading :=
  if o.takesValue && value.isNone then .error .invalidValue
  else if o.parameter = .help then .error .help
  else if o.parameter = .version then .error .version
  else if r.has o.parameter && !o.isRepeatable then .error .repeatedArgument
  else
    let text := value.getD ""
    match o.form.problem? text with
    | some problem => .error problem
    | none => .ok { r with recorded := r.recorded ++ [(o.parameter, text)] }

/-- The reading with the pending argument recorded. -/
def settle (r : Reading) : Answered Reading :=
  match r.pending with
  | none => .ok r
  | some (o, value) => { r with pending := none }.record o value

/-- The reading after an argument whose value is known. -/
def take (r : Reading) (o : OptionSpec) (value : Option String) : Answered Reading := do
  let r ← r.settle
  r.record o value

/-- The reading after an option whose value is the next argument. -/
def await (r : Reading) (o : OptionSpec) : Answered Reading := do
  let r ← r.settle
  .ok { r with pending := some (o, none) }

/-- The option that waits for the next argument as its value. -/
def awaiting? (r : Reading) : Option OptionSpec :=
  match r.pending with
  | some (o, none) => some o
  | _ => none

/-- The reading after an option with a long name, with or without a value behind `=`. -/
def long (r : Reading) (options : List OptionSpec) (name : String) (value : Option String) :
    Answered Reading :=
  match options.find? fun o => o.long == name with
  | none => .error .unknownArgument
  | some o =>
    if o.takesValue then
      match value with
      | some _ => r.take o value
      | none => r.await o
    else if value.isSome then .error .superfluousValue
    else r.take o none

/-- The reading after options with short names in one argument; the first that takes a value takes
    the rest, of which an `=` in front is left aside. -/
def shorts (r : Reading) (options : List OptionSpec) : List Char → Answered Reading
  | [] => .ok r
  | c :: rest =>
    match options.find? fun o => o.short == some c with
    | none => .error .unknownArgument
    | some o =>
      if o.takesValue then
        match rest with
        | [] => r.await o
        | '=' :: value => r.take o (some (String.ofList value))
        | value => r.take o (some (String.ofList value))
      else
        match r.take o none with
        | .error e => .error e
        | .ok r => r.shorts options rest

end Reading

/-- What an argument looks like. -/
inductive Shape where
  | separator
  | long (name : String) (value : Option String)
  | shorts (letters : List Char)
  | plain
deriving DecidableEq, Repr

/-- What an argument looks like; a hyphen alone is a value. -/
def Shape.of (argument : String) : Shape :=
  match argument.toList with
  | ['-', '-'] => .separator
  | '-' :: '-' :: rest =>
    let name := String.ofList (rest.takeWhile (· ≠ '='))
    match rest.dropWhile (· ≠ '=') with
    | [] => .long name none
    | _ :: value => .long name (some (String.ofList value))
  | '-' :: c :: rest => .shorts (c :: rest)
  | _ => .plain

/-- The reading after a value that belongs to no option: the argument without a name, if there is
    one and it was not given yet. -/
def Reading.plain (r : Reading) (positional : Option OptionSpec) (argument : String) :
    Answered Reading :=
  match positional with
  | none => .error .unknownArgument
  | some o =>
    if r.has o.parameter || r.pending.any (fun p => p.1.parameter = o.parameter) then
      .error .unknownArgument
    else do
      let r ← r.settle
      .ok { r with pending := some (o, some argument) }

/-- The reading after an argument of a command. -/
def Reading.argument (r : Reading) (options : List OptionSpec) (positional : Option OptionSpec)
    (argument : String) : Answered Reading :=
  if r.onlyValues then r.plain positional argument
  else
    match Shape.of argument with
    | .separator => .ok { r with onlyValues := true }
    | .long name value => r.long options name value
    | .shorts letters => r.shorts options letters
    | .plain =>
      match r.awaiting? with
      | some o => .ok { r with pending := some (o, some argument) }
      | none => r.plain positional argument

/-- The reading of all arguments of a command. -/
def readArguments (options : List OptionSpec) (positional : Option OptionSpec)
    (arguments : List String) : Answered Reading := do
  let r ← arguments.foldlM (fun r a => Reading.argument r options positional a) ({} : Reading)
  r.settle

/-- The manifest that is meant. -/
def Reading.manifest (r : Reading) : Path := ((r.first? .manifest).map Path.mk).getD defaultManifest

/-- The values that replace those of the manifest. -/
def Reading.overrides (r : Reading) : Overrides where
  output := (r.first? .output).map Path.mk
  rootDir := (r.first? .rootDir).map Path.mk
  indentWidth := (r.first? .indent).bind byte?
  includes := r.all .includeGlob
  excludes := r.all .excludeRegex
  baseConfig := (r.first? .tsExtends).map Path.mk
  references := (r.all .tsReference).map Path.mk

/-- The names of the commands; `help` is one of them. -/
def commandNames : List String := ["generate", "check", "completions", "help"]

/-- The answer to a call for help, which may name a command. -/
def helpAnswer : List String → UsageAnswer
  | [] => .help
  | name :: rest =>
    if commandNames.contains name && rest.isEmpty then .help else .unknownCommand

/-- The command of a given name with its arguments. -/
def readCommand (name : String) (arguments : List String) : Answered Command :=
  match name with
  | "generate" => do
    let r ← readArguments generateOptions none arguments
    .ok (.generate r.manifest r.overrides (r.has .dryRun))
  | "check" => do
    let r ← readArguments checkOptions none arguments
    .ok (.check r.manifest)
  | "completions" => do
    let r ← readArguments commonOptions (some shellArgument) arguments
    match r.first? .shell with
    | some shell => .ok (.completions shell)
    | none => .error .missingArgument
  | _ => .error (helpAnswer arguments)

/-- The command that arguments ask for, given what was read before it. -/
def readRoot : Reading → List String → Answered Command
  | r, [] => .error (if r.recorded.isEmpty then .noArguments else .missingCommand)
  | r, argument :: rest =>
    if r.onlyValues then
      .error (if commandNames.contains argument then .unknownArgument else .unknownCommand)
    else if commandNames.contains argument then readCommand argument rest
    else
      match Shape.of argument with
      | .separator => readRoot { r with onlyValues := true } rest
      | .long name value =>
        match r.long rootOptions name value with
        | .error e => .error e
        | .ok r => readRoot r rest
      | .shorts letters =>
        match r.shorts rootOptions letters with
        | .error e => .error e
        | .ok r => readRoot r rest
      | .plain => .error .unknownCommand

/-- The command that arguments ask for. -/
def parse (arguments : List String) : Answered Command := readRoot {} arguments

end InterfaceGuards.CommandLine
