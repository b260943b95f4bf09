/-
  Indentation.

  * `Indent`: what one level of indentation is made of.
  * `Levels`: handles on indentation depths; handles may share a depth.
-/
namespace InterfaceGuards.Code

/-- What one level of indentation is made of. -/
inductive Indent where
  | spaces (width : Nat)
  | tab
deriving DecidableEq, Repr

namespace Indent

/-- The indentation of a configured width; width zero means tabs. -/
def ofWidth (width : Nat) : Indent := if width = 0 then .tab else .spaces width

/-- Four spaces, when nothing else is configured. -/
def standard : Indent := .spaces 4

/-- The text of one level. -/
def unit : Indent → String
  | .spaces width => String.ofList (List.replicate width ' ')
  | .tab => "\t"

/-- The text of some levels. -/
def levels (indent : Indent) (depth : Nat) : String :=
  String.join (List.replicate depth indent.unit)

end Indent

/-- A depth with its indentation. -/
structure Level where
  indent : Indent
  depth : Nat
deriving DecidableEq, Repr

/-- The text in front of a line. -/
def Level.leading (l : Level) : String := l.indent.levels l.depth

/-- Depths, and handles that each stand for one of them; several handles may share a depth. -/
structure Levels where
  shared : List Level
  handles : List Nat
deriving DecidableEq, Repr

namespace Levels

/-- One handle on a depth of zero. -/
def start (indent : Indent) : Levels := ⟨[⟨indent, 0⟩], [0]⟩

/-- The depth that a handle stands for. -/
def get? (ls : Levels) (handle : Nat) : Option Level :=
  ls.handles[handle]?.bind fun i => ls.shared[i]?

/-- Changes the depth that a handle stands for, for all handles that share it. -/
def change (ls : Levels) (handle : Nat) (f : Nat → Nat) : Levels :=
  match ls.handles[handle]? with
  | none => ls
  | some i => { ls with shared := ls.shared.modify i fun l => { l with depth := f l.depth } }

/-- One level deeper. -/
def increase (ls : Levels) (handle : Nat) : Levels := ls.change handle (· + 1)

/-- One level less deep, but never below zero. -/
def decrease (ls : Levels) (handle : Nat) : Levels := ls.change handle (· - 1)

/-- A further handle on the depth that a handle stands for. -/
def share (ls : Levels) (handle : Nat) : Levels :=
  match ls.handles[handle]? with
  | none => ls
  | some i => { ls with handles := ls.handles ++ [i] }

/-- A further handle on a depth of its own. -/
def add (ls : Levels) (indent : Indent) : Levels :=
  ⟨ls.shared ++ [⟨indent, 0⟩], ls.handles ++ [ls.shared.length]⟩

/-- What all handles stand for, in order. -/
def toList (ls : Levels) : List Level := ls.handles.filterMap fun i => ls.shared[i]?

end Levels

end InterfaceGuards.Code
