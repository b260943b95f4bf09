/-
  Tokens of type expressions.

  * `Token`: names, string and number literals, punctuation and the arrow.
  * `SyntaxError`: why a text is no type expression, and at which byte of it.
  * `tokenize`: the tokens of a text, each with the byte it starts at.

  The longest token that starts at a character is taken.  Blanks between tokens
  are skipped.
-/
import InterfaceGuards.Number.Decimal
import InterfaceGuards.TypeExpr.Basic

namespace InterfaceGuards.TypeExpr

/-- A token of a type expression. -/
inductive Token where
  | ident (name : String)
  | string (value : String)
  | number (value : Double)
  | mark (c : Char)
  | arrow
deriving DecidableEq, Repr

/-- The text that shows a token in a message. -/
def Token.display : Token → String
  | .ident name => "`" ++ name ++ "`"
  | .string value => "string '" ++ value ++ "'"
  | .number value => "number " ++ value.text
  | .mark c => "`" ++ c.toString ++ "`"
  | .arrow => "`=>`"

/-- A token and the byte it starts at. -/
structure Located where
  token : Token
  offset : Nat
deriving DecidableEq, Repr

/-- Why a text is no type expression. -/
inductive SyntaxProblem where
  | unterminatedString
  | unexpectedCharacter (c : Char)
  | unexpectedToken (found : Token)
  | expectedMark (c : Char) (found : Option Token)
  | unclosed (opening : Char)
  | expectedType (found : Option Token)
  | expectedNumber
  | parameterWithArguments (name : String)
  | arrayArity
  | expectedSeparator (found : Token)
  | expectedKeyName
  | expectedMemberName (found : Option Token)
deriving DecidableEq, Repr

/-- The text for what was found. -/
def displayFound : Option Token → String
  | some token => token.display
  | none => "end of input"

/-- The wording of a problem. -/
def SyntaxProblem.message : SyntaxProblem → String
  | .unterminatedString => "unterminated string literal"
  | .unexpectedCharacter c => "unexpected character `" ++ c.toString ++ "`"
  | .unexpectedToken found => "unexpected " ++ found.display
  | .expectedMark c found => "expected `" ++ c.toString ++ "`, found " ++ displayFound found
  | .unclosed opening => "unclosed `" ++ opening.toString ++ "`"
  | .expectedType found => "expected a type, found " ++ displayFound found
  | .expectedNumber => "expected a number after `-`"
  | .parameterWithArguments name => "type parameter `" ++ name ++ "` takes no arguments"
  | .arrayArity => "`Array` takes exactly one type argument"
  | .expectedSeparator found => "expected `;` or `\x7d`, found " ++ found.display
  | .expectedKeyName => "expected an index key name"
  | .expectedMemberName found => "expected a member name, found " ++ displayFound found

/-- A problem and the byte it was met at. -/
structure SyntaxError where
  problem : SyntaxProblem
  offset : Nat
deriving DecidableEq, Repr

/-! ## Character classes -/

/-- The blanks between tokens. -/
def isGap (c : Char) : Bool := c == ' ' || c == '\t' || c == '\n' || c == '\r'

/-- The characters that a name starts with. -/
def isNameStart (c : Char) : Bool := c.isAlpha || c == '_' || c == '$'

/-- The characters that a name goes on with. -/
def isNamePart (c : Char) : Bool := isNameStart c || c.isDigit

/-- The characters that are tokens by themselves. -/
def isMark (c : Char) : Bool := "|&()\x7b\x7d[]<>,;:?-".toList.contains c

/-! ## Scanning one token -/

/-- The contents of a string literal up to its closing quote, and how many characters they and the
    quote take.  A backslash stands for the character after it, which is no line feed. -/
def scanString (quote : Char) : List Char → Option (List Char × Nat)
  | [] => none
  | '\\' :: rest =>
    match rest with
    | [] => none
    | c :: rest =>
      if c = '\n' then none
      else (scanString quote rest).map fun (value, length) => (c :: value, length + 2)
  | c :: rest =>
    if c = quote then some ([], 1)
    else (scanString quote rest).map fun (value, length) => (c :: value, length + 1)

/-- The digits behind the point that a text starts with, if it does. -/
def fractionDigits : List Char → List Char
  | '.' :: rest => rest.takeWhile Char.isDigit
  | _ => []

/-- A number literal: digits, and a fraction when a digit follows the point. -/
def scanNumber (cs : List Char) : Option (Token × Nat) :=
  let whole := cs.takeWhile Char.isDigit
  let fraction := fractionDigits (cs.drop whole.length)
  let text := if fraction.isEmpty then whole else whole ++ '.' :: fraction
  (Double.ofText? (String.ofList text)).map fun x => (.number x, text.length)

/-- The token that starts at a character, and how many characters it takes. -/
def scanToken (c : Char) (rest : List Char) : Option (Token × Nat) :=
  if isNameStart c then
    let name := c :: rest.takeWhile isNamePart
    some (.ident (String.ofList name), name.length)
  else if c.isDigit then scanNumber (c :: rest)
  else if c = '"' ∨ c = '\'' then
    (scanString c rest).map fun (value, length) => (.string (String.ofList value), length + 1)
  else if c = '=' then
    match rest with
    | '>' :: _ => some (.arrow, 2)
    | _ => none
  else if isMark c then some (.mark c, 1)
  else none

/-- Why no token starts at a character. -/
def scanProblem (c : Char) : SyntaxProblem :=
  if c = '"' ∨ c = '\'' then .unterminatedString else .unexpectedCharacter c

/-! ## Tokens of a text -/

/-- The tokens of a text that starts at byte `offset` and whose first `inside` characters still
    belong to the token before. -/
def tokensFrom : (inside offset : Nat) → List Char → Except SyntaxError (List Located)
  | _, _, [] => .ok []
  | inside + 1, offset, c :: rest => tokensFrom inside (offset + c.utf8Size) rest
  | 0, offset, c :: rest =>
    if isGap c then tokensFrom 0 (offset + c.utf8Size) rest
    else
      match scanToken c rest with
      | none => .error ⟨scanProblem c, offset⟩
      | some (token, length) =>
        match tokensFrom (length - 1) (offset + c.utf8Size) rest with
        | .error e => .error e
        | .ok tokens => .ok (⟨token, offset⟩ :: tokens)

/-- The tokens of a text. -/
def tokenize (source : String) : Except SyntaxError (List Located) :=
  tokensFrom 0 0 source.toList

end InterfaceGuards.TypeExpr
