/-
  Code as a sequence of pieces.

  * `Piece`: a text that starts a line at some depth, or one that goes on where it stands.
  * `Code`: pieces in order; `Code.deeper` moves its lines one level to the right.
  * `Code.text`: the text of the pieces for an indentation and a depth to start from.
-/
import InterfaceGuards.Code.Indent

namespace InterfaceGuards.Code

/-- A text with the depth it is indented to, if it is. -/
inductive Piece where
  | line (depth : Nat) (text : String)
  | raw (text : String)
deriving DecidableEq, Repr

namespace Piece

/-- The piece some levels further to the right. -/
def shift (levels : Nat) : Piece → Piece
  | .line depth text => .line (depth + levels) text
  | .raw text => .raw text

/-- The text of a piece. -/
def text (indent : Indent) : Piece → String
  | .line depth text => indent.levels depth ++ text
  | .raw text => text

end Piece

end Code

/-- A sequence of pieces. -/
abbrev Code := List Code.Piece

namespace Code

/-- The code some levels further to the right. -/
def shift (levels : Nat) (code : Code) : Code := code.map (Piece.shift levels)

/-- The code one level further to the right. -/
def deeper (code : Code) : Code := shift 1 code

/-- The text of code. -/
def text (indent : Indent) (code : Code) : String := String.join (code.map (Piece.text indent))

/-- Code between an opening and a closing line. -/
def block (opening : String) (body : Code) (closing : String) : Code :=
  .line 0 opening :: deeper body ++ [.line 0 closing]

end Code

end InterfaceGuards
