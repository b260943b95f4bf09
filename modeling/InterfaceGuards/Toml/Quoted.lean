/-
  Quoted TOML strings.

  * `quoted?`: the string in quotes that starts a text, and what follows it.

  There are four forms: in double or in single quotes, each on one line or, with
  three quotes, on several.  Escapes are read between double quotes only.
-/
import InterfaceGuards.Toml.Value

namespace InterfaceGuards.Toml

/-- Whether a character may stand in a string or comment as it is: no control character but the
    tab. -/
def isPlain (c : Char) : Bool := c == '\t' || (0x20 ≤ c.toNat && c.toNat ≠ 0x7F)

/-- The value of a hexadecimal digit. -/
def hexValue? (c : Char) : Option Nat :=
  if c.isDigit then some (c.toNat - '0'.toNat)
  else if 'a' ≤ c ∧ c ≤ 'f' then some (c.toNat - 'a'.toNat + 10)
  else if 'A' ≤ c ∧ c ≤ 'F' then some (c.toNat - 'A'.toNat + 10)
  else none

/-- The character whose code point the given hexadecimal digits denote. -/
def hexChar? (digits : List Char) : Option Char := do
  let values ← digits.mapM hexValue?
  let n := values.foldl (fun n d => 16 * n + d) 0
  if n.isValidChar then some (Char.ofNat n) else none

/-- The character of an escape that needs so many hexadecimal digits, and the number of characters
    from the backslash on that it leaves to skip. -/
def hexEscape? (count : Nat) (rest : List Char) : Option (Char × Nat) :=
  if (rest.take count).length = count then
    (hexChar? (rest.take count)).map fun c => (c, count + 1)
  else none

/-- The character that an escape stands for and the number of characters after the backslash. -/
def escape? : List Char → Option (Char × Nat)
  | 'b' :: _ => some ('\x08', 1)
  | 't' :: _ => some ('\t', 1)
  | 'n' :: _ => some ('\n', 1)
  | 'f' :: _ => some ('\x0c', 1)
  | 'r' :: _ => some ('\r', 1)
  | 'e' :: _ => some ('\x1b', 1)
  | '"' :: _ => some ('"', 1)
  | '\\' :: _ => some ('\\', 1)
  | 'x' :: rest => hexEscape? 2 rest
  | 'u' :: rest => hexEscape? 4 rest
  | 'U' :: rest => hexEscape? 8 rest
  | _ => none

/-- The rest of a string in double quotes, of which `skip` characters belong to an escape read
    before, and what follows it. -/
def basicBody? : (skip : Nat) → List Char → Option (List Char × List Char)
  | _, [] => none
  | skip + 1, _ :: rest => basicBody? skip rest
  | 0, c :: rest =>
    if c = '"' then some ([], rest)
    else if c = '\\' then
      match escape? rest with
      | none => none
      | some (d, skip) => (basicBody? skip rest).map fun (body, rest) => (d :: body, rest)
    else if isPlain c then (basicBody? 0 rest).map fun (body, rest) => (c :: body, rest)
    else none

/-- The rest of a string in single quotes, and what follows it. -/
def literalBody? : List Char → Option (List Char × List Char)
  | [] => none
  | c :: rest =>
    if c = '\'' then some ([], rest)
    else if isPlain c then (literalBody? rest).map fun (body, rest) => (c :: body, rest)
    else none

/-- The number of blanks and line ends that an escaped line end skips, from after the backslash on;
    there must be a line end with only blanks before it. -/
def lineEndEscape? (rest : List Char) : Option Nat :=
  let blanks := rest.takeWhile fun c => c == ' ' || c == '\t'
  let isEnd := match rest.drop blanks.length with
    | '\n' :: _ => true
    | '\r' :: '\n' :: _ => true
    | _ => false
  if isEnd then
    some (rest.takeWhile fun c => c == ' ' || c == '\t' || c == '\n' || c == '\r').length
  else none

/-- Whether a character may stand in a string of several lines, given what follows it. -/
def isPlainOrLineEnd (c : Char) (rest : List Char) : Bool :=
  isPlain c || c == '\n' || (c == '\r' && rest.head? == some '\n')

/-- The rest of a string of several lines between the given quotes, of which `skip` characters were
    dealt with before, and what follows it.  Up to two quotes in a row belong to the string, also
    right before the three that end it. -/
def multilineBody? (quote : Char) : (skip : Nat) → List Char → Option (List Char × List Char)
  | _, [] => none
  | skip + 1, _ :: rest => multilineBody? quote skip rest
  | 0, c :: rest =>
    if c = quote then
      let run := (rest.takeWhile (· == quote)).length + 1
      if run < 3 then
        (multilineBody? quote 0 rest).map fun (body, rest) => (c :: body, rest)
      else
        let inside := min (run - 3) 2
        some (List.replicate inside quote, rest.drop (inside + 2))
    else if c = '\\' ∧ quote = '"' then
      match lineEndEscape? rest with
      | some skip => multilineBody? quote skip rest
      | none =>
        match escape? rest with
        | none => none
        | some (d, skip) =>
          (multilineBody? quote skip rest).map fun (body, rest) => (d :: body, rest)
    else if isPlainOrLineEnd c rest then
      (multilineBody? quote 0 rest).map fun (body, rest) => (c :: body, rest)
    else none

/-- A text without the line end that starts it. -/
def dropLineEnd : List Char → List Char
  | '\n' :: rest => rest
  | '\r' :: '\n' :: rest => rest
  | cs => cs

/-- The string on one line that starts a text, and what follows it. -/
def lineString? : List Char → Option (List Char × List Char)
  | '"' :: rest => basicBody? 0 rest
  | '\'' :: rest => literalBody? rest
  | _ => none

/-- The string in quotes that starts a text, and what follows it. -/
def quoted? : List Char → Option (List Char × List Char)
  | '"' :: '"' :: '"' :: rest => multilineBody? '"' 0 (dropLineEnd rest)
  | '\'' :: '\'' :: '\'' :: rest => multilineBody? '\'' 0 (dropLineEnd rest)
  | cs => lineString? cs

end InterfaceGuards.Toml
