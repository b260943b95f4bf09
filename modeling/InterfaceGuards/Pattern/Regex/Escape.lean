/-
  Escapes in regular expressions.

  * `Flags`: the options under which a regular expression is read.
  * `Flags.skipGap`: blanks and comments, where the options let them stand.
  * `escape?`: what a backslash and the characters after it stand for.

  Without the option `unicode` only ASCII has sets with names, and no set may
  hold a character beyond it.  A property that `CharSet` has no name for is
  refused: `\p{Greek}` and `\p{Alphabetic}` are no escapes here.
-/
import InterfaceGuards.Pattern.Regex.Basic

namespace InterfaceGuards.Pattern

/-- The options under which a regular expression is read. -/
structure Flags where
  ignoreCase : Bool := false
  multiLine : Bool := false
  dotAll : Bool := false
  crlf : Bool := false
  unicode : Bool := true
  verbose : Bool := false
deriving DecidableEq, Repr

namespace Flags

/-- The options after one has been switched on or off; the one that swaps the preference among
    matches has no effect here. -/
def set (f : Flags) (name : Char) (on : Bool) : Flags :=
  match name with
  | 'i' => { f with ignoreCase := on }
  | 'm' => { f with multiLine := on }
  | 's' => { f with dotAll := on }
  | 'R' => { f with crlf := on }
  | 'u' => { f with unicode := on }
  | 'x' => { f with verbose := on }
  | _ => f

/-- A set as the options take it: with the other case where case is ignored. -/
def fold (f : Flags) (a : CharSet) : CharSet :=
  if f.ignoreCase then (if f.unicode then a.folded else a.asciiFolded) else a

/-- A set or its complement, with the other case where case is ignored; without the option
    `unicode` there are no complements. -/
def foldAndNegate? (f : Flags) (negated : Bool) (a : CharSet) : Option CharSet :=
  if negated && !f.unicode then none else some ((f.fold a).negatedIf negated)

end Flags

/-- A text without the blanks and comments in front, of which a comment may have started. -/
def skipComments : (inComment : Bool) → List Char → List Char
  | _, [] => []
  | true, c :: rest => skipComments (c != '\n') rest
  | false, c :: rest =>
    if Text.isSpace c then skipComments false rest
    else if c = '#' then skipComments true rest
    else c :: rest

/-- A text without the blanks and comments in front, if they may stand there. -/
def Flags.skipGap (f : Flags) (cs : List Char) : List Char :=
  if f.verbose then skipComments false cs else cs

/-- The accepted characters in front, and what follows them.  Blanks and comments may stand
    between them, of which a comment may have started. -/
def takeSpaced (f : Flags) (accepts : Char → Bool) :
    (inComment : Bool) → List Char → List Char × List Char
  | _, [] => ([], [])
  | true, c :: rest => takeSpaced f accepts (c != '\n') rest
  | false, c :: rest =>
    if f.verbose && Text.isSpace c then takeSpaced f accepts false rest
    else if f.verbose && c = '#' then takeSpaced f accepts true rest
    else if accepts c then
      let (taken, rest) := takeSpaced f accepts false rest
      (c :: taken, rest)
    else ([], c :: rest)

/-- What a part of a regular expression that is no operator stands for. -/
inductive Atom where
  | char (c : Char)
  | set (chars : CharSet)
  | look (condition : Look)

/-- The value of a hexadecimal digit. -/
def hexValue? (c : Char) : Option Nat :=
  if c.isDigit then some (c.toNat - '0'.toNat)
  else if 'a' ≤ c ∧ c ≤ 'f' then some (c.toNat - 'a'.toNat + 10)
  else if 'A' ≤ c ∧ c ≤ 'F' then some (c.toNat - 'A'.toNat + 10)
  else none

/-- The character with a number, if there is one. -/
def scalar? (n : Nat) : Option Char :=
  if n < 0xD800 ∨ (0xE000 ≤ n ∧ n < 0x110000) then some (Char.ofNat n) else none

/-- The character with a number in hexadecimal digits, if there is one. -/
def hexChar? (digits : List Char) : Option Char :=
  (digits.foldlM (fun n c => (hexValue? c).map (16 * n + ·)) 0).bind scalar?

/-- So many characters, and what follows them.  Blanks and comments may stand between them, of
    which a comment may have started. -/
def takeCount? (f : Flags) : (count : Nat) → (inComment : Bool) → List Char →
    Option (List Char × List Char)
  | 0, _, rest => some ([], rest)
  | _ + 1, _, [] => none
  | count + 1, true, c :: rest => takeCount? f (count + 1) (c != '\n') rest
  | count + 1, false, c :: rest =>
    if f.verbose && Text.isSpace c then takeCount? f (count + 1) false rest
    else if f.verbose && c = '#' then takeCount? f (count + 1) true rest
    else (takeCount? f count false rest).map fun (taken, rest) => (c :: taken, rest)

/-- The character that a number in hexadecimal digits stands for: a number in braces, or so many
    digits.  Without the option `unicode` two digits stand for a byte, which has to be ASCII. -/
def hexEscape? (f : Flags) (count : Nat) (cs : List Char) : Option (Char × List Char) :=
  match f.skipGap cs with
  | '\x7b' :: rest =>
    match takeSpaced f (· ≠ '\x7d') false rest with
    | (digits, '\x7d' :: rest) =>
      if digits.isEmpty then none else (hexChar? digits).map fun c => (c, f.skipGap rest)
    | _ => none
  | rest =>
    match takeCount? f count false rest with
    | none => none
    | some (digits, rest) =>
      match hexChar? digits with
      | none => none
      | some c =>
        if count = 2 ∧ !f.unicode ∧ 0x80 ≤ c.toNat then none else some (c, f.skipGap rest)

/-- The texts before and after the first place where a separator occurs. -/
def cutAt? (separator : List Char) : List Char → Option (List Char × List Char)
  | [] => none
  | c :: rest =>
    if separator.isPrefixOf (c :: rest) then some ([], (c :: rest).drop separator.length)
    else (cutAt? separator rest).map fun (before, after) => (c :: before, after)

/-- The set that a description in braces stands for, and whether its complement is meant. -/
def describedSet? (description : List Char) : Option (CharSet × Bool) :=
  match cutAt? ['!', '='] description with
  | some (name, value) => (CharSet.ofPropertyValue? name value).map (·, true)
  | none =>
    match cutAt? [':'] description with
    | some (name, value) => (CharSet.ofPropertyValue? name value).map (·, false)
    | none =>
      match cutAt? ['='] description with
      | some (name, value) => (CharSet.ofPropertyValue? name value).map (·, false)
      | none => (CharSet.ofPropertyName? description).map (·, false)

/-- The set of characters with a property, which is a letter or stands in braces. -/
def propertyEscape? (f : Flags) (negated : Bool) (cs : List Char) :
    Option (CharSet × List Char) :=
  let finish (described : Option (CharSet × Bool)) (rest : List Char) :=
    described.bind fun (a, complement) =>
      (f.foldAndNegate? (negated != complement) a).map (·, rest)
  if !f.unicode then none
  else
    match f.skipGap cs with
    | [] => none
    | '\x7b' :: rest =>
      match takeSpaced f (· ≠ '\x7d') false rest with
      | (description, '\x7d' :: rest) => finish (describedSet? description) rest
      | _ => none
    | c :: rest =>
      if c = '\\' then none
      else finish ((CharSet.ofPropertyName? [c]).map (·, false)) (f.skipGap rest)

/-- A set with a name of one letter: `\d`, `\s` or `\w`, or their complements. -/
def letterSet? (f : Flags) (letter : Char) : Option CharSet :=
  let named (unicode ascii : CharSet) : Option CharSet :=
    let a := if f.unicode then unicode else ascii
    if letter.isUpper && !f.unicode then none else some (a.negatedIf letter.isUpper)
  match letter.toLower with
  | 'd' => named CharSet.digit CharSet.asciiDigit
  | 's' => named CharSet.space CharSet.asciiSpace
  | 'w' => named CharSet.word CharSet.asciiWord
  | _ => none

/-- The boundary that `\b` stands for, which can be named in braces.  Braces that hold no name
    belong to a repetition. -/
def boundary? (f : Flags) (cs : List Char) : Option (WordBoundary × List Char) :=
  match cs with
  | '\x7b' :: rest =>
    match f.skipGap rest with
    | [] => none
    | c :: _ =>
      let isNamePart (c : Char) := c.isAlpha || c == '-'
      if !isNamePart c then some (.here, cs)
      else
        match takeSpaced f isNamePart false rest with
        | (name, '\x7d' :: rest) =>
          match String.ofList name with
          | "start" => some (.start, rest)
          | "end" => some (.stop, rest)
          | "start-half" => some (.startHalf, rest)
          | "end-half" => some (.stopHalf, rest)
          | _ => none
        | _ => none
  | _ => some (.here, cs)

/-- Whether a backslash before a character stands for the character: ASCII but for digits,
    letters and angle brackets. -/
def isEscapable (c : Char) : Bool :=
  c.toNat < 0x80 && !c.isAlphanum && c != '<' && c != '>'

/-- What a backslash and the characters after it stand for. -/
def escape? (f : Flags) : List Char → Option (Atom × List Char)
  | [] => none
  | c :: rest =>
    if isEscapable c then some (.char c, rest)
    else
      let look (boundary : WordBoundary) : Atom := .look (.word f.unicode boundary)
      match c with
      | 'x' => (hexEscape? f 2 rest).map fun (c, rest) => (.char c, rest)
      | 'u' => (hexEscape? f 4 rest).map fun (c, rest) => (.char c, rest)
      | 'U' => (hexEscape? f 8 rest).map fun (c, rest) => (.char c, rest)
      | 'p' => (propertyEscape? f false rest).map fun (a, rest) => (.set a, rest)
      | 'P' => (propertyEscape? f true rest).map fun (a, rest) => (.set a, rest)
      | 'a' => some (.char '\x07', rest)
      | 'f' => some (.char '\x0c', rest)
      | 't' => some (.char '\t', rest)
      | 'n' => some (.char '\n', rest)
      | 'r' => some (.char '\r', rest)
      | 'v' => some (.char '\x0b', rest)
      | 'A' => some (.look .textStart, rest)
      | 'z' => some (.look .textEnd, rest)
      | 'b' => (boundary? f rest).map fun (b, rest) => (look b, rest)
      | 'B' => some (look .notHere, rest)
      | '<' => some (look .start, rest)
      | '>' => some (look .stop, rest)
      | _ => (letterSet? f c).map fun a => (.set a, rest)

end InterfaceGuards.Pattern
