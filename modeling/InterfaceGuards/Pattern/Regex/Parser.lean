/-
  Reading regular expressions.

  * `Regex.parse?`: the regular expression that a text writes.

  Options set inside a group hold up to its end, also in the alternatives that
  follow.  `bound` limits groups and repetitions; it is made from the length of
  the text, of which each step takes at least one character.

  There is no other limit: a regular expression is read however deep its groups
  are nested and however large what it stands for becomes.
-/
import InterfaceGuards.Pattern.Regex.Bracket

namespace InterfaceGuards.Pattern.Regex

/-- Where reading stands: the text still to be read, the options in force and the names of the
    groups so far. -/
structure Cursor where
  rest : List Char
  flags : Flags
  names : List (List Char)
deriving Repr

/-- What a character stands for. -/
def ofChar (f : Flags) (c : Char) : Regex := .set (f.fold (CharSet.single c))

/-- What an atom stands for. -/
def ofAtom (f : Flags) : Atom → Regex
  | .char c => ofChar f c
  | .set a => .set a
  | .look condition => .look condition

/-- What a full stop stands for; without the option `unicode` nothing, as it would match parts of
    characters. -/
def dot? (f : Flags) : Option Regex :=
  if !f.unicode then none
  else if f.dotAll then some (.set fun _ => true)
  else if f.crlf then some (.set fun c => c != '\n' && c != '\r')
  else some (.set fun c => c != '\n')

/-- What `^` stands for. -/
def lineStart (f : Flags) : Regex :=
  .look (if f.multiLine then (if f.crlf then .lineStartCrlf else .lineStart) else .textStart)

/-- What `$` stands for. -/
def lineEnd (f : Flags) : Regex :=
  .look (if f.multiLine then (if f.crlf then .lineEndCrlf else .lineEnd) else .textEnd)

/-- The options after a list of them such as `i-m`, whether a colon ends the list, and what
    follows.  None may be listed twice, and the last has to be more than a minus. -/
def readFlags (seen : List Char) (f : Flags) : List Char → Option (Flags × Bool × List Char)
  | [] => none
  | c :: rest =>
    if c = ':' then if seen.head? = some '-' then none else some (f, true, rest)
    else if c = ')' then
      if seen.isEmpty ∨ seen.head? = some '-' then none else some (f, false, rest)
    else if seen.contains c ∨ !"imsUuRx-".toList.contains c then none
    else readFlags (c :: seen) (f.set c !(seen.contains '-')) rest

/-- Whether a character can stand in the name of a group. -/
def isNameChar (isFirst : Bool) (c : Char) : Bool :=
  c == '_' || Text.isLetter c ||
    (!isFirst && (c == '.' || c == '[' || c == ']' || Text.isNumber c))

/-- Whether a text can name a group. -/
def isGroupName : List Char → Bool
  | [] => false
  | c :: rest => isNameChar true c && rest.all (isNameChar false)

/-- The beginning of a group. -/
inductive GroupStart where
  /-- Options for the rest of the group around. -/
  | options (after : Cursor)
  /-- A group, read from this place on. -/
  | body (start : Cursor)

/-- A group with a name that ends at an angle bracket. -/
def namedGroup? (c : Cursor) (cs : List Char) : Option GroupStart :=
  let name := cs.takeWhile (· ≠ '>')
  match cs.dropWhile (· ≠ '>') with
  | [] => none
  | _ :: rest =>
    if isGroupName name && !c.names.contains name then
      some (.body { c with rest := rest, names := name :: c.names })
    else none

/-- What the characters after an opening bracket begin.  A look at the text around is refused. -/
def groupStart? (c : Cursor) : Option GroupStart :=
  match c.flags.skipGap c.rest with
  | '?' :: '=' :: _ => none
  | '?' :: '!' :: _ => none
  | '?' :: '<' :: '=' :: _ => none
  | '?' :: '<' :: '!' :: _ => none
  | '?' :: 'P' :: '<' :: rest => namedGroup? c rest
  | '?' :: '<' :: rest => namedGroup? c rest
  | '?' :: rest =>
    match readFlags [] c.flags rest with
    | none => none
    | some (f, true, rest) => some (.body { c with rest := rest, flags := f })
    | some (f, false, rest) => some (.options { c with rest := rest, flags := f })
  | rest => some (.body { c with rest := rest })

/-- A count of at most 32 bits, with blanks around it. -/
def count? (f : Flags) (cs : List Char) : Option (Nat × List Char) :=
  match takeSpaced f Char.isDigit false (cs.dropWhile Text.isSpace) with
  | ([], _) => none
  | (digits, rest) =>
    let n := digits.foldl (fun n d => 10 * n + (d.toNat - '0'.toNat)) 0
    if n < 0x100000000 then some (n, rest.dropWhile Text.isSpace) else none

/-- The bounds of a repetition, after its opening brace. -/
def bounds? (f : Flags) (cs : List Char) : Option ((Nat × Option Nat) × List Char) :=
  match count? f (f.skipGap cs) with
  | none => none
  | some (least, '\x7d' :: rest) => some ((least, some least), rest)
  | some (least, ',' :: rest) =>
    match f.skipGap rest with
    | '\x7d' :: rest => some ((least, none), rest)
    | rest =>
      match count? f rest with
      | some (most, '\x7d' :: rest) =>
        if least ≤ most then some ((least, some most), rest) else none
      | _ => none
  | some _ => none

/-- A text without the question mark in front that asks for short matches. -/
def skipLazy : List Char → List Char
  | '?' :: rest => rest
  | rest => rest

/-- How often the last item is repeated, if a repetition comes next; the second question mark
    that asks for short matches makes no difference. -/
def repetition? (f : Flags) : List Char → Option (Option ((Nat × Option Nat) × List Char))
  | '?' :: rest => some (some ((0, some 1), skipLazy rest))
  | '*' :: rest => some (some ((0, none), skipLazy rest))
  | '+' :: rest => some (some ((1, none), skipLazy rest))
  | '\x7b' :: rest =>
    match bounds? f rest with
    | none => none
    | some (bounds, rest) => some (some (bounds, skipLazy (f.skipGap rest)))
  | _ => some none

/-- The item of one character, escape or list that comes next. -/
def item? (f : Flags) : List Char → Option (Regex × List Char)
  | [] => none
  | '\\' :: rest => (escape? f rest).map fun (a, rest) => (ofAtom f a, rest)
  | '[' :: rest => (bracket? f rest).map fun (a, rest) => (.set a, rest)
  | '.' :: rest => (dot? f).map (·, rest)
  | '^' :: rest => some (lineStart f, rest)
  | '$' :: rest => some (lineEnd f, rest)
  | c :: rest => some (ofChar f c, rest)

/-- The items of a branch one after the other, given the last one first. -/
def ofItems (items : List (Option Regex)) : Regex := sequence (items.reverse.filterMap id)

mutual

/-- The alternatives up to a closing bracket or the end. -/
def alternatives? : (bound : Nat) → Cursor → Option (Regex × Cursor)
  | 0, _ => none
  | bound + 1, c =>
    match branch? bound [] c with
    | none => none
    | some (first, c) =>
      match c.rest with
      | '|' :: rest =>
        match alternatives? bound { c with rest := rest } with
        | none => none
        | some (more, c) => some (.alt first more, c)
      | _ => some (first, c)

/-- The items up to a bar, a closing bracket or the end, given those before it, the last one
    first.  Options stand among them as `none`: they cannot be repeated. -/
def branch? : (bound : Nat) → (items : List (Option Regex)) → Cursor → Option (Regex × Cursor)
  | 0, _, _ => none
  | bound + 1, items, c =>
    let text := c.flags.skipGap c.rest
    match text with
    | [] => some (ofItems items, { c with rest := text })
    | '|' :: _ => some (ofItems items, { c with rest := text })
    | ')' :: _ => some (ofItems items, { c with rest := text })
    | '(' :: rest =>
      match groupStart? { c with rest := rest } with
      | none => none
      | some (.options c) => branch? bound (none :: items) c
      | some (.body start) =>
        match alternatives? bound start with
        | some (body, ⟨')' :: rest, _, names⟩) =>
          branch? bound (some body :: items) ⟨rest, c.flags, names⟩
        | _ => none
    | text =>
      match repetition? c.flags text with
      | none => none
      | some (some ((least, most), rest)) =>
        match items with
        | some last :: items =>
          branch? bound (some (.repeated last least most) :: items) { c with rest := rest }
        | _ => none
      | some none =>
        match item? c.flags text with
        | none => none
        | some (r, rest) => branch? bound (some r :: items) { c with rest := rest }

end

/-- The regular expression that a text writes. -/
def parse? (text : String) : Option Regex :=
  match alternatives? (2 * text.length + 2) ⟨text.toList, {}, []⟩ with
  | some (r, ⟨[], _, _⟩) => some r
  | _ => none

end InterfaceGuards.Pattern.Regex
