/-
  Findings that do not stop a run.

  * `Diagnostic`: what was found, how bad it is, and where.
-/
namespace InterfaceGuards

/-- How bad a finding is. -/
inductive Severity where
  | error
  | warning
  | info
deriving DecidableEq, Repr

/-- The word for a severity. -/
def Severity.name : Severity → String
  | .error => "error"
  | .warning => "warning"
  | .info => "info"

/-- A finding of one phase of the work. -/
structure Diagnostic where
  severity : Severity
  phase : String
  message : String
  location : Option String
deriving DecidableEq, Repr

namespace Diagnostic

/-- A warning at a location. -/
def warning (phase message location : String) : Diagnostic :=
  ⟨.warning, phase, message, some location⟩

/-- The finding at another location. -/
def located (d : Diagnostic) (location : String) : Diagnostic :=
  { d with location := some location }

/-- Whether the finding is an error. -/
def isError (d : Diagnostic) : Bool := d.severity = .error

/-- Whether the finding is a warning. -/
def isWarning (d : Diagnostic) : Bool := d.severity = .warning

/-- The finding in one line. -/
def display (d : Diagnostic) : String :=
  d.severity.name ++ ": " ++ d.message ++
    match d.location with
    | some location => " (at " ++ location ++ ")"
    | none => ""

end Diagnostic

end InterfaceGuards
