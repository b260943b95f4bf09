/-
  Streams that code is written to.

  * `Streams`: a family of streams derived from one, all at the same depth.
  * `Streams.write`, `append`, `drain`: writing to one of them and taking its text.
  * `Streams.child`, `copy`: deriving another stream.
  * `Streams.block`, `indented`: writing one level deeper, to whichever stream.
-/
import InterfaceGuards.Code.Piece

namespace InterfaceGuards.Code

/-- A family of streams.  All were derived from the first one and share its depth. -/
structure Streams where
  indent : Indent
  depth : Nat
  buffers : List String
deriving DecidableEq, Repr

namespace Streams

/-- One empty stream at depth zero. -/
def start (indent : Indent) : Streams := ⟨indent, 0, [""]⟩

/-- What was written to a stream and not yet taken. -/
def buffer (s : Streams) (i : Nat) : String := s.buffers[i]?.getD ""

/-- Appends a text as it is. -/
def append (s : Streams) (i : Nat) (text : String) : Streams :=
  { s with buffers := s.buffers.modify i (· ++ text) }

/-- Appends a text after the indentation of the current depth. -/
def write (s : Streams) (i : Nat) (text : String) : Streams :=
  s.append i (s.indent.levels s.depth ++ text)

/-- Takes what was written to a stream. -/
def drain (s : Streams) (i : Nat) : String × Streams :=
  (s.buffer i, { s with buffers := s.buffers.modify i fun _ => "" })

/-- Derives an empty stream. -/
def child (s : Streams) : Streams := { s with buffers := s.buffers ++ [""] }

/-- Derives a stream that holds what a stream holds. -/
def copy (s : Streams) (i : Nat) : Streams := { s with buffers := s.buffers ++ [s.buffer i] }

/-- One level deeper. -/
def enter (s : Streams) : Streams := { s with depth := s.depth + 1 }

/-- One level less deep. -/
def leave (s : Streams) : Streams := { s with depth := s.depth - 1 }

end Streams

/-- A step of writing to a family of streams. -/
inductive WriteStep where
  | write (stream : Nat) (text : String)
  | append (stream : Nat) (text : String)
  | drain (stream : Nat)
  | child (stream : Nat)
  | copy (stream : Nat)
  | block (stream : Nat) (opening closing : String) (body : List WriteStep)
  | indented (stream : Nat) (body : List WriteStep)
deriving Repr

namespace WriteStep

/-- The stream that a step addresses. -/
def stream : WriteStep → Nat
  | .write i _ => i
  | .append i _ => i
  | .drain i => i
  | .child i => i
  | .copy i => i
  | .block i _ _ _ => i
  | .indented i _ => i

end WriteStep

/-- What is seen through the addressed stream after a step, and the text that the step took. -/
structure WriteRecord where
  buffer : String
  depth : Nat
  taken : Option String
deriving DecidableEq, Repr

namespace Streams

/-- What is seen through a stream. -/
def record (s : Streams) (i : Nat) (taken : Option String) : WriteRecord :=
  ⟨s.buffer i, s.depth, taken⟩

mutual

/-- The streams after a step, and what was seen after it and after every step inside it. -/
def step (s : Streams) : WriteStep → Streams × List WriteRecord
  | .write i text => let t := s.write i text; (t, [t.record i none])
  | .append i text => let t := s.append i text; (t, [t.record i none])
  | .drain i => let (text, t) := s.drain i; (t, [t.record i (some text)])
  | .child i => let t := s.child; (t, [t.record i none])
  | .copy i => let t := s.copy i; (t, [t.record i none])
  | .block i opening closing body =>
    let (t, seen) := (s.write i opening).enter.run body
    let t := t.leave.write i closing
    (t, seen ++ [t.record i none])
  | .indented i body =>
    let (t, seen) := s.enter.run body
    let t := t.leave
    (t, seen ++ [t.record i none])

/-- The streams after some steps, and what was seen after each of them. -/
def run (s : Streams) : List WriteStep → Streams × List WriteRecord
  | [] => (s, [])
  | first :: rest =>
    let (t, seen) := s.step first
    let (u, more) := t.run rest
    (u, seen ++ more)

end

end Streams

end InterfaceGuards.Code
