/-
  The command line.

  * `Command`: what a command line asks for.
  * `UsageAnswer`: why it asks for nothing, or for words about the program only.
  * `OptionSpec`: an option and what it takes.
-/
import InterfaceGuards.Settings

namespace InterfaceGuards.CommandLine

/-- What a command line asks for. -/
inductive Command where
  | generate (manifest : Path) (overrides : Overrides) (dryRun : Bool)
  | check (manifest : Path)
  | completions (shell : String)
deriving DecidableEq, Repr

/-- Why no command is carried out. -/
inductive UsageAnswer where
  | help
  | version
  | noArguments
  | missingCommand
  | unknownCommand
  | unknownArgument
  | invalidValue
  | rejectedValue
  | repeatedArgument
  | superfluousValue
  | missingArgument
deriving DecidableEq, Repr

/-- What an argument is about. -/
inductive Parameter where
  | manifest
  | output
  | rootDir
  | includeGlob
  | excludeRegex
  | tsExtends
  | tsReference
  | indent
  | dryRun
  | verbose
  | help
  | version
  | shell
deriving DecidableEq, Repr

/-- What an option takes, and whether it can be given again. -/
inductive Arity where
  | flag
  | count
  | value
  | values
deriving DecidableEq, Repr

/-- The form that a value has to have. -/
inductive ValueForm where
  | text
  | path
  | byte
  | shell
deriving DecidableEq, Repr

/-- An option, its names and what it takes. -/
structure OptionSpec where
  parameter : Parameter
  long : String
  short : Option Char := none
  arity : Arity
  form : ValueForm := .text
deriving DecidableEq, Repr

/-- Whether an option takes a value. -/
def OptionSpec.takesValue (o : OptionSpec) : Bool := o.arity = .value || o.arity = .values

/-- Whether an option can be given again. -/
def OptionSpec.isRepeatable (o : OptionSpec) : Bool := o.arity = .count || o.arity = .values

/-- The options of all commands. -/
def commonOptions : List OptionSpec :=
  [⟨.verbose, "verbose", some 'v', .count, .text⟩, ⟨.help, "help", some 'h', .flag, .text⟩]

/-- The options before a command. -/
def rootOptions : List OptionSpec :=
  commonOptions ++ [⟨.version, "version", some 'V', .flag, .text⟩]

/-- The option that names the manifest. -/
def manifestOption : OptionSpec := ⟨.manifest, "manifest", some 'm', .value, .path⟩

/-- The options of `check`. -/
def checkOptions : List OptionSpec := manifestOption :: commonOptions

/-- The options of `generate`. -/
def generateOptions : List OptionSpec :=
  [manifestOption, ⟨.output, "output", some 'o', .value, .path⟩,
    ⟨.rootDir, "root-dir", none, .value, .path⟩, ⟨.includeGlob, "include", none, .values, .text⟩,
    ⟨.excludeRegex, "exclude", none, .values, .text⟩,
    ⟨.tsExtends, "ts-extends", none, .value, .path⟩,
    ⟨.tsReference, "ts-reference", none, .values, .path⟩,
    ⟨.indent, "indent", none, .value, .byte⟩, ⟨.dryRun, "dry-run", none, .flag, .text⟩] ++
    commonOptions

/-- The shells that completions are known for. -/
def shells : List String := ["bash", "elvish", "fish", "powershell", "zsh"]

/-- The shell, which is given without a name. -/
def shellArgument : OptionSpec := ⟨.shell, "", none, .value, .shell⟩

/-- The manifest that is meant when none is named. -/
def defaultManifest : Path := ⟨"shapes.toml"⟩

end InterfaceGuards.CommandLine
