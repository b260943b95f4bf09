/-
  A session: code being written for a unit, step by step.

  * `Session`: the scope at which work stands, what is needed and was found so far, and the
    stream that code is written to.
  * `Session.emitDefault`, `emitRecord`, `emitChecks`, `emitObjectChecks`: writing code.
  * `Session.within`, `expanding`, `indented`: doing something inside a member, inside the
    expansion of a name, or one level deeper.
-/
import InterfaceGuards.Code.Stream
import InterfaceGuards.Synthesis.Default
import InterfaceGuards.Synthesis.Guard
import InterfaceGuards.Unit.Script

namespace InterfaceGuards

open Script (Accessor Check Expr Helper)

/-- Code being written for a unit. -/
structure Session where
  scope : Scope
  requirements : Requirements
  diagnostics : List Diagnostic
  indent : Code.Indent
  depth : Nat
  buffer : String
deriving Repr

namespace Session

/-- Nothing written yet. -/
def start (catalog : Catalog) (unit : SourceUnit) (indent : Code.Indent) : Session where
  scope := .start catalog unit
  requirements := .none
  diagnostics := []
  indent := indent
  depth := 0
  buffer := ""

/-- A helper is needed. -/
def requireHelper (s : Session) (helper : Helper) : Session :=
  { s with requirements := s.requirements.requireHelper helper }

/-- Symbols of the unit's own source are needed. -/
def requireImport (s : Session) (symbols : List String) : Session :=
  { s with requirements := s.requirements.requireImport s.scope.unit.path symbols }

/-- Raises a warning where work stands. -/
def warn (s : Session) (phase message : String) : Session :=
  { s with diagnostics := s.diagnostics ++ [s.scope.warning phase message] }

/-- Takes over what a synthesis noted. -/
def noted (s : Session) (notes : Notes) : Session :=
  { s with
    requirements := notes.helpers.foldl Requirements.requireHelper s.requirements
    diagnostics := s.diagnostics ++ notes.warnings }

/-- Writes code where work stands. -/
def write (s : Session) (code : Code) : Session :=
  { s with buffer := s.buffer ++ (code.shift s.depth).text s.indent }

/-- Takes the text written so far. -/
def drain (s : Session) : String × Session := (s.buffer, { s with buffer := "" })

/-- Writes the code of what a synthesis makes; when it makes nothing, nothing is written. -/
def emit {α : Type} (s : Session) (made : Synthesis α) (code : α → Code) :
    Outcome Unit × Session :=
  let s := s.noted made.notes
  match made.outcome with
  | .value a => (.value (), s.write (code a))
  | .error e => (.error e, s)
  | .endless => (.endless, s)

/-- Writes the default value of a described type. -/
def emitDefault (s : Session) (d : Description) : Outcome Unit × Session :=
  s.emit (s.scope.defaultOf d) Expr.code

/-- Writes the record with a default value for every member. -/
def emitRecord (s : Session) (members : List Member) (spread cast : Option String) :
    Outcome Unit × Session :=
  s.emit (s.scope.recordOf members spread cast) Expr.code

/-- Writes the checks of a described type. -/
def emitChecks (s : Session) (a : Accessor) (d : Description) : Outcome Unit × Session :=
  s.emit (s.scope.checksOf a d) Check.codeAll

/-- Writes the checks that a value is an object with the given members. -/
def emitObjectChecks (s : Session) (a : Accessor) (members : List Member) :
    Outcome Unit × Session :=
  s.emit (s.scope.objectChecksOf a members) Check.codeAll

/-- Does something in another scope and comes back to the one before. -/
def inScope {α : Type} (s : Session) (change : Scope → Scope) (body : Session → α × Session) :
    α × Session :=
  let (a, t) := body { s with scope := change s.scope }
  (a, { t with scope := s.scope })

/-- Does something inside a member. -/
def within {α : Type} (s : Session) (segment : String) (body : Session → α × Session) :
    α × Session :=
  s.inScope (·.within segment) body

/-- Does something while a name is being expanded. -/
def expanding {α : Type} (s : Session) (name : String) (body : Session → α × Session) :
    α × Session :=
  s.inScope (·.expand name) body

/-- Does something one level deeper. -/
def indented {α : Type} (s : Session) (body : Session → α × Session) : α × Session :=
  let (a, t) := body { s with depth := s.depth + 1 }
  (a, { t with depth := s.depth })

end Session

end InterfaceGuards
