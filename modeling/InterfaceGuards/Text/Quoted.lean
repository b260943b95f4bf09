/-
  Texts written as string literals.

  * `doubleQuoted`: a literal in double quotes, escaped as in JSON.
  * `singleQuoted`: a literal in single quotes, with the quote, the backslash
    and every line terminator escaped.

  Both are given character by character: `doubleEscape` and `singleEscape` say
  what stands for one character.
-/
namespace InterfaceGuards.Text

/-- A digit of a hexadecimal number, in lower case. -/
def hexDigit (n : Nat) : Char := (Nat.digitChar n)

/-- What stands for a character between double quotes. -/
def doubleEscape (c : Char) : List Char :=
  match c with
  | '"' => ['\\', '"']
  | '\\' => ['\\', '\\']
  | '\x08' => ['\\', 'b']
  | '\t' => ['\\', 't']
  | '\n' => ['\\', 'n']
  | '\x0c' => ['\\', 'f']
  | '\r' => ['\\', 'r']
  | c =>
    if c.toNat < 0x20 then
      ['\\', 'u', '0', '0', hexDigit (c.toNat / 16), hexDigit (c.toNat % 16)]
    else [c]

/-- What stands for a character between single quotes. -/
def singleEscape (c : Char) : List Char :=
  match c with
  | '\\' => ['\\', '\\']
  | '\'' => ['\\', '\'']
  | '\n' => ['\\', 'n']
  | '\r' => ['\\', 'r']
  | '\u2028' => ['\\', 'u', '2', '0', '2', '8']
  | '\u2029' => ['\\', 'u', '2', '0', '2', '9']
  | c => [c]

/-- The text as a literal in double quotes. -/
def doubleQuoted (text : String) : String :=
  String.ofList ('"' :: text.toList.flatMap doubleEscape ++ ['"'])

/-- The text as a literal in single quotes. -/
def singleQuoted (text : String) : String :=
  String.ofList ('\'' :: text.toList.flatMap singleEscape ++ ['\''])

end InterfaceGuards.Text
