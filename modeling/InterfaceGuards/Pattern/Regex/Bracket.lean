/-
  Sets of characters in brackets.

  * `bracket?`: the set that a list in brackets stands for, and what follows it.

  A list holds characters, ranges, escapes, sets with names and lists of its
  own; `&&`, `--` and `~~` intersect, subtract and compare what stands on their
  two sides, from left to right.  `bound` limits the number of items; it is made
  from the length of the text, of which each item takes at least one character.
-/
import InterfaceGuards.Pattern.Regex.Escape

namespace InterfaceGuards.Pattern

/-- What stands before an operator of a list, and how the rest is combined with it. -/
structure Operand where
  left : CharSet
  combine : CharSet → CharSet → CharSet

/-- The set of what was read: the last part combined with what stands before it. -/
def combined (f : Flags) (before : Option Operand) (last : CharSet) : CharSet :=
  match before with
  | none => last
  | some operand => operand.combine (f.fold operand.left) (f.fold last)

/-- The atom at the start of an item. -/
def listAtom? (f : Flags) : List Char → Option (Atom × List Char)
  | [] => none
  | '\\' :: rest => escape? f rest
  | c :: rest => some (.char c, rest)

/-- A character as a member of a list; without the option `unicode` it has to be ASCII. -/
def member? (f : Flags) (c : Char) : Option Char :=
  if !f.unicode ∧ 0x80 ≤ c.toNat then none else some c

/-- The set that an atom alone adds to a list. -/
def atomSet? (f : Flags) : Atom → Option CharSet
  | .char c => (member? f c).map CharSet.single
  | .set a => some a
  | .look _ => none

/-- The set of a range between two atoms. -/
def rangeSet? (f : Flags) : Atom → Atom → Option CharSet
  | .char first, .char last =>
    match member? f first, member? f last with
    | some first, some last => if first ≤ last then some (CharSet.range ⟨first, last⟩) else none
    | _, _ => none
  | _, _ => none

/-- A character or a range, or a set with a name.  A hyphen before the closing bracket or before
    another hyphen makes no range. -/
def listItem? (f : Flags) (cs : List Char) : Option (CharSet × List Char) :=
  match listAtom? f cs with
  | none => none
  | some (first, rest) =>
    match f.skipGap rest with
    | '-' :: rest =>
      match f.skipGap rest with
      | [] => none
      | next :: _ =>
        if next = ']' ∨ next = '-' then (atomSet? f first).map (·, '-' :: rest)
        else
          match listAtom? f (f.skipGap rest) with
          | none => none
          | some (last, rest) => (rangeSet? f first last).map (·, rest)
    | rest => (atomSet? f first).map (·, rest)

/-- A set with a name in brackets and colons, such as `[:alpha:]`. -/
def posixSet? (f : Flags) (cs : List Char) : Option (Option CharSet × List Char) :=
  match cs with
  | '[' :: ':' :: rest =>
    let (negated, rest) :=
      match rest with
      | '^' :: rest => (true, rest)
      | _ => (false, rest)
    match rest.dropWhile (· ≠ ':') with
    | ':' :: ']' :: after =>
      (CharSet.ofPosixName? (String.ofList (rest.takeWhile (· ≠ ':')))).map fun a =>
        (f.foldAndNegate? negated a, after)
    | _ => none
  | _ => none

/-- The members with which a list can start and which mean something else in other places: hyphens,
    or a closing bracket. -/
def listStart (f : Flags) (cs : List Char) : CharSet × List Char :=
  match takeSpaced f (· == '-') false cs with
  | ([], ']' :: rest) => (CharSet.single ']', rest)
  | ([], rest) => (CharSet.empty, rest)
  | (_, rest) => (CharSet.single '-', rest)

/-- What follows the opening bracket of a list: whether its complement is meant, its first members,
    and the rest. -/
def listOpening (f : Flags) (cs : List Char) : Bool × CharSet × List Char :=
  match f.skipGap cs with
  | '^' :: rest => (true, listStart f (f.skipGap rest))
  | rest => (false, listStart f rest)

/-- The set of the rest of a list up to its closing bracket. -/
def listRest? (f : Flags) : (bound : Nat) → (before : Option Operand) → (last : CharSet) →
    List Char → Option (CharSet × List Char)
  | 0, _, _, _ => none
  | bound + 1, before, last, cs =>
    match f.skipGap cs with
    | ']' :: rest => some (combined f before last, rest)
    | '&' :: '&' :: rest =>
      listRest? f bound (some ⟨combined f before last, CharSet.inter⟩) CharSet.empty rest
    | '-' :: '-' :: rest =>
      listRest? f bound (some ⟨combined f before last, CharSet.diff⟩) CharSet.empty rest
    | '~' :: '~' :: rest =>
      listRest? f bound (some ⟨combined f before last, CharSet.symmDiff⟩) CharSet.empty rest
    | '[' :: rest =>
      match posixSet? f ('[' :: rest) with
      | some (none, _) => none
      | some (some a, rest) => listRest? f bound before (last.union a) rest
      | none =>
        let (negated, start, rest) := listOpening f rest
        match listRest? f bound none start rest with
        | none => none
        | some (a, rest) =>
          match f.foldAndNegate? negated a with
          | none => none
          | some a => listRest? f bound before (last.union a) rest
    | rest =>
      match listItem? f rest with
      | none => none
      | some (a, rest) => listRest? f bound before (last.union a) rest

/-- The set that a list stands for, given the text after its opening bracket. -/
def bracket? (f : Flags) (cs : List Char) : Option (CharSet × List Char) :=
  let (negated, start, rest) := listOpening f cs
  match listRest? f (cs.length + 1) none start rest with
  | none => none
  | some (a, rest) => (f.foldAndNegate? negated a).map (·, rest)

end InterfaceGuards.Pattern
