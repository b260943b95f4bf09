/-
  Globs.

  * `Glob`: a pattern for whole texts.
  * `Glob.parse?`: the glob that a text writes.
  * `Glob.accepts`: whether a text fits.

  `?` stands for any character, `*` for any characters, `[…]` for one character
  of a list and `[!…]` for one outside it; all of them may be slashes.  `**`
  stands for whole directories, so it has to stand between slashes or at an end.
-/
namespace InterfaceGuards.Pattern

/-- The characters from one to another. -/
structure CharRange where
  first : Char
  last : Char
deriving DecidableEq, Repr

/-- Whether the range holds a character. -/
def CharRange.contains (r : CharRange) (c : Char) : Bool := r.first ≤ c && c ≤ r.last

/-- A part of a glob. -/
inductive GlobPart where
  | char (c : Char)
  | anyChar
  | within (ranges : List CharRange)
  | outside (ranges : List CharRange)
  | anyText
  | anyDirectories
deriving DecidableEq, Repr

/-- A pattern for whole texts. -/
abbrev Glob := List GlobPart

namespace GlobPart

/-- Whether a part that stands for one character stands for this one. -/
def accepts : GlobPart → Char → Bool
  | .char c, d => c == d
  | .anyChar, _ => true
  | .within ranges, d => ranges.any (·.contains d)
  | .outside ranges, d => !ranges.any (·.contains d)
  | .anyText, _ => false
  | .anyDirectories, _ => false

end GlobPart

namespace Glob

/-! ## Matching -/

/-- Whether some end of a text has a property. -/
def someSuffix (p : List Char → Bool) : List Char → Bool
  | [] => p []
  | c :: rest => p (c :: rest) || someSuffix p rest

/-- Whether a property holds of what follows some slash, or of nothing at the end. -/
def someBelow (p : List Char → Bool) : List Char → Bool
  | [] => p []
  | c :: rest => (c == '/' && p rest) || someBelow p rest

/-- Whether a text fits. -/
def accepts : Glob → List Char → Bool
  | [], text => text.isEmpty
  | .anyText :: parts, text => someSuffix (accepts parts) text
  | .anyDirectories :: parts, text => accepts parts text || someBelow (accepts parts) text
  | _ :: _, [] => false
  | part :: parts, c :: rest => part.accepts c && accepts parts rest

/-! ## Reading -/

/-- The ranges that a list in brackets writes: `a-z`, or a character alone. -/
def rangesOf : List Char → List CharRange
  | first :: '-' :: last :: rest => ⟨first, last⟩ :: rangesOf rest
  | c :: rest => ⟨c, c⟩ :: rangesOf rest
  | [] => []

/-- The characters before the bracket that closes a list; one that stands first belongs to it. -/
def listed? : List Char → Option (List Char)
  | [] => none
  | first :: rest =>
    if rest.contains ']' then some (first :: rest.takeWhile (· ≠ ']')) else none

/-- The part that a list in brackets stands for, and how many characters follow the opening
    bracket. -/
def bracketPart? (rest : List Char) : Option (GlobPart × Nat) :=
  match rest with
  | '!' :: rest => (listed? rest).map fun cs => (.outside (rangesOf cs), cs.length + 2)
  | rest => (listed? rest).map fun cs => (.within (rangesOf cs), cs.length + 1)

/-- Whether a directory can start after a character, or with none before it. -/
def startsDirectory : Option Char → Bool
  | none => true
  | some c => c == '/'

/-- The glob written by a text whose first `inside` characters belong to the part before, and
    which follows the character `previous`. -/
def parseFrom : (inside : Nat) → (previous : Option Char) → List Char → Option Glob
  | _, _, [] => some []
  | inside + 1, _, c :: rest => parseFrom inside (some c) rest
  | 0, previous, c :: rest =>
    match c, rest with
    | '?', _ => (parseFrom 0 (some c) rest).map (.anyChar :: ·)
    | '*', '*' :: '*' :: _ => none
    | '*', ['*'] => if startsDirectory previous then some [.anyDirectories] else none
    | '*', '*' :: '/' :: _ =>
      if startsDirectory previous then (parseFrom 2 (some c) rest).map (.anyDirectories :: ·)
      else none
    | '*', '*' :: _ => none
    | '*', _ => (parseFrom 0 (some c) rest).map (.anyText :: ·)
    | '[', _ =>
      match bracketPart? rest with
      | none => none
      | some (part, length) => (parseFrom length (some c) rest).map (part :: ·)
    | c, _ => (parseFrom 0 (some c) rest).map (.char c :: ·)

/-- The glob that a text writes. -/
def parse? (text : String) : Option Glob := parseFrom 0 none text.toList

end Glob

end InterfaceGuards.Pattern
