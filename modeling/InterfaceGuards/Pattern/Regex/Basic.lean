/-
  Regular expressions.

  * `Regex`: a pattern for parts of a text.
  * `Regex.advance`: the places at which a match can end, given those at which it can start.
  * `Regex.foundIn`: whether some part of a text matches.

  The places of a text of `n` characters are the `n + 1` gaps before, between
  and behind them.  A set of places is the list of the answers whether each is
  in it.
-/
import InterfaceGuards.Pattern.CharSet

namespace InterfaceGuards.Pattern

/-- What has to hold at a place next to words. -/
inductive WordBoundary where
  | here
  | notHere
  | start
  | stop
  | startHalf
  | stopHalf
deriving DecidableEq, Repr

/-- A condition on a place. -/
inductive Look where
  | textStart
  | textEnd
  | lineStart
  | lineEnd
  | lineStartCrlf
  | lineEndCrlf
  | word (unicode : Bool) (boundary : WordBoundary)
deriving DecidableEq, Repr

/-- A place of a text: the characters next to it. -/
structure Place where
  before : Option Char
  after : Option Char
deriving DecidableEq, Repr

/-- The places of a text that follows a character. -/
def placesAfter (before : Option Char) : List Char → List Place
  | [] => [⟨before, none⟩]
  | c :: rest => ⟨before, some c⟩ :: placesAfter (some c) rest

/-- Whether a boundary is of this kind, given whether word characters stand before and after it. -/
def WordBoundary.holds : WordBoundary → (before after : Bool) → Bool
  | .here, before, after => before != after
  | .notHere, before, after => before == after
  | .start, before, after => !before && after
  | .stop, before, after => before && !after
  | .startHalf, before, _ => !before
  | .stopHalf, _, after => !after

/-- Whether a place meets a condition. -/
def Look.holds (look : Look) (p : Place) : Bool :=
  match look with
  | .textStart => p.before.isNone
  | .textEnd => p.after.isNone
  | .lineStart => p.before.isNone || p.before == some '\n'
  | .lineEnd => p.after.isNone || p.after == some '\n'
  | .lineStartCrlf =>
    p.before.isNone || p.before == some '\n' || (p.before == some '\r' && p.after != some '\n')
  | .lineEndCrlf =>
    p.after.isNone || p.after == some '\r' || (p.after == some '\n' && p.before != some '\r')
  | .word unicode boundary =>
    let isWord := if unicode then CharSet.word else CharSet.asciiWord
    boundary.holds (p.before.any isWord) (p.after.any isWord)

/-- A pattern for parts of a text. -/
inductive Regex where
  | empty
  | set (chars : CharSet)
  | look (condition : Look)
  | seq (first second : Regex)
  | alt (first second : Regex)
  | repeated (body : Regex) (least : Nat) (most : Option Nat)

/-- A set of places of a text. -/
abbrev Places := List Bool

namespace Places

/-- The places in either set. -/
def union (a b : Places) : Places := List.zipWith (· || ·) a b

/-- Whether there is a place in the set. -/
def nonempty (a : Places) : Bool := a.any id

/-- The places after `count` rounds. -/
def rounds (step : Places → Places) : (count : Nat) → Places → Places
  | 0, a => a
  | count + 1, a => rounds step count (step a)

/-- The places after at most `count` rounds. -/
def upTo (step : Places → Places) : (count : Nat) → Places → Places
  | 0, a => a
  | count + 1, a =>
    let next := step a
    if next.nonempty then union a (upTo step count next) else a

end Places

namespace Regex

/-- The places at which a match can end when it starts at one of `from`.

    Rounds of a repetition that do not move on can be left out or repeated, so no more rounds
    than the text has places make a difference. -/
def advance (text : List Char) : Regex → Places → Places
  | .empty, start => start
  | .set chars, start => false :: List.zipWith (fun here c => here && chars c) start text
  | .look condition, start =>
    List.zipWith (fun here p => here && condition.holds p) start (placesAfter none text)
  | .seq first second, start => advance text second (advance text first start)
  | .alt first second, start => (advance text first start).union (advance text second start)
  | .repeated body least most, start =>
    let bound := text.length + 1
    let further := match most with
      | none => bound
      | some most => min (most - least) bound
    Places.upTo (advance text body) further
      (Places.rounds (advance text body) (min least bound) start)

/-- Whether some part of a text matches. -/
def foundIn (r : Regex) (text : List Char) : Bool :=
  (r.advance text (List.replicate (text.length + 1) true)).nonempty

/-- One after the other. -/
def sequence (rs : List Regex) : Regex := rs.foldr .seq .empty

end Regex

end InterfaceGuards.Pattern
