/-
  Synthesis: making code for a described type, with what comes up on the way.

  * `SynthesisError`: why no code can be made.
  * `Notes`: the helpers called and the warnings raised so far.
  * `Synthesis α`: notes together with a value, an error, or the fact that the
    expansion of the type has no end.

  Notes outlive an error: what was noted before it stays.
-/
import InterfaceGuards.Catalog.Describe
import InterfaceGuards.Diagnostic
import InterfaceGuards.Script.Function

namespace InterfaceGuards

open Script (Helper)

/-- Why a member is no property with a name and a type. -/
inductive MemberFault where
  | notProperty
  | noName
  | noType
deriving DecidableEq, Repr

/-- The wording of a fault. -/
def MemberFault.message : MemberFault → String
  | .notProperty => "is not a property signature"
  | .noName => "has no name"
  | .noType => "has no declared type"

/-- Why no code can be made for a type. -/
inductive SynthesisError where
  | unsupported (kind : String)
  | malformedMember (name : String) (fault : MemberFault)
  | emptyStructure (name : String)
  | noDefault (name : String)
  | recursive (name : String)
  | resolve (error : ResolveError)
deriving DecidableEq, Repr

namespace SynthesisError

/-- The wording of an error. -/
def message : SynthesisError → String
  | .unsupported kind => "unsupported type shape `" ++ kind ++ "`"
  | .malformedMember name fault => "member `" ++ name ++ "` " ++ fault.message
  | .emptyStructure name => "`" ++ name ++ "` has no members to build a default from"
  | .noDefault name => "no default value for unresolved reference `" ++ name ++ "`"
  | .recursive name => "`" ++ name ++ "` refers to itself and has no type guard in this unit"
  | .resolve error => error.message

/-- Whether the error is about the form of a member. -/
def isMalformed : SynthesisError → Bool
  | .malformedMember _ _ => true
  | _ => false

end SynthesisError

/-- The name and type of a member that is a property. -/
def MemberOf.property? (m : Member) : Except SynthesisError (String × TypeExpr) :=
  if m.kind = .property then
    match m.name, m.type with
    | some name, some type => .ok (name, type)
    | none, _ => .error (.malformedMember m.displayName .noName)
    | some _, none => .error (.malformedMember m.displayName .noType)
  else .error (.malformedMember m.displayName .notProperty)

/-- The helpers called and the warnings raised, in order. -/
structure Notes where
  helpers : List Helper
  warnings : List Diagnostic
deriving DecidableEq, Repr

namespace Notes

/-- Nothing noted. -/
def empty : Notes := ⟨[], []⟩

/-- One set of notes after another. -/
def append (first second : Notes) : Notes :=
  ⟨first.helpers ++ second.helpers, first.warnings ++ second.warnings⟩

instance : Append Notes := ⟨append⟩

end Notes

/-- How a synthesis ends, if it does. -/
inductive Outcome (α : Type) where
  | value (a : α)
  | error (e : SynthesisError)
  | endless
deriving DecidableEq, Repr

/-- Code in the making: what was noted, and how it ended. -/
structure Synthesis (α : Type) where
  notes : Notes
  outcome : Outcome α
deriving DecidableEq, Repr

namespace Synthesis

variable {α β : Type}

/-- A value, with nothing noted. -/
protected def pure (a : α) : Synthesis α := ⟨.empty, .value a⟩

/-- An error, with nothing noted. -/
def fail (e : SynthesisError) : Synthesis α := ⟨.empty, .error e⟩

/-- An expansion that has no end. -/
def endless : Synthesis α := ⟨.empty, .endless⟩

/-- Notes and nothing else. -/
def note (notes : Notes) : Synthesis Unit := ⟨notes, .value ()⟩

/-- Notes that a helper is called. -/
def require (helper : Helper) : Synthesis Unit := note ⟨[helper], []⟩

/-- Notes a warning. -/
def warn (warning : Diagnostic) : Synthesis Unit := note ⟨[], [warning]⟩

/-- One synthesis after another. -/
protected def bind (x : Synthesis α) (f : α → Synthesis β) : Synthesis β :=
  match x.outcome with
  | .value a => ⟨x.notes ++ (f a).notes, (f a).outcome⟩
  | .error e => ⟨x.notes, .error e⟩
  | .endless => ⟨x.notes, .endless⟩

instance : Monad Synthesis where
  pure := Synthesis.pure
  bind := Synthesis.bind

/-- The result of a synthesis, an error included; an expansion without end stays one. -/
def attempt (x : Synthesis α) : Synthesis (Except SynthesisError α) :=
  match x.outcome with
  | .value a => ⟨x.notes, .value (.ok a)⟩
  | .error e => ⟨x.notes, .value (.error e)⟩
  | .endless => ⟨x.notes, .endless⟩

/-- A description or the error for there being none. -/
def ofDescribed (x : Except ResolveError α) : Synthesis α :=
  match x with
  | .ok a => .pure a
  | .error e => fail (.resolve e)

end Synthesis

end InterfaceGuards
