/-
  TOML documents.

  * `statements?`: the headers and key/value pairs that a text consists of.
  * `entriesOf?`: the table that they make up together.
  * `parse?`: the table that a text denotes.

  `bound` limits repetitions and nesting; it is made from the length of the text,
  of which each repetition takes at least one character.
-/
import InterfaceGuards.Toml.Quoted
import InterfaceGuards.Toml.Scalar

namespace InterfaceGuards.Toml

/-- The number of bytes of a text. -/
def byteLength : List Char → Nat
  | [] => 0
  | c :: rest => c.utf8Size + byteLength rest

/-- A text without the blanks in front. -/
def skipBlanks (cs : List Char) : List Char := cs.dropWhile fun c => c == ' ' || c == '\t'

/-- A text without the blanks, line ends and comments in front, of which a comment may have
    started already. -/
def skipTrivia? : (inComment : Bool) → List Char → Option (List Char)
  | _, [] => some []
  | _, '\n' :: rest => skipTrivia? false rest
  | inComment, '\r' :: rest =>
    match rest with
    | '\n' :: rest => skipTrivia? false rest
    | _ => if inComment then none else some ('\r' :: rest)
  | true, c :: rest => if isPlain c then skipTrivia? true rest else none
  | false, c :: rest =>
    if c = ' ' ∨ c = '\t' then skipTrivia? false rest
    else if c = '#' then skipTrivia? true rest
    else some (c :: rest)

/-- What follows the line, of which only blanks and a comment may be left. -/
def endLine? : (inComment : Bool) → List Char → Option (List Char)
  | _, [] => some []
  | _, '\n' :: rest => some rest
  | _, '\r' :: rest =>
    match rest with
    | '\n' :: rest => some rest
    | _ => none
  | true, c :: rest => if isPlain c then endLine? true rest else none
  | false, c :: rest =>
    if c = ' ' ∨ c = '\t' then endLine? false rest
    else if c = '#' then endLine? true rest
    else none

/-- The characters of a key without quotes. -/
def isBareKeyChar (c : Char) : Bool := c.isAlphanum || c == '_' || c == '-'

/-- The characters of a value without quotes. -/
def isScalarChar (c : Char) : Bool := c.isAlphanum || "_+-.:".toList.contains c

/-- The key that starts a text, and what follows it. -/
def key? (cs : List Char) : Option (String × List Char) :=
  match lineString? cs with
  | some (key, rest) => some (String.ofList key, rest)
  | none =>
    let key := cs.takeWhile isBareKeyChar
    if key.isEmpty then none else some (String.ofList key, cs.drop key.length)

/-- The keys with dots between them that start a text, and what follows them and blanks. -/
def dottedKey? : (bound : Nat) → List Char → Option (List String × List Char)
  | 0, _ => none
  | bound + 1, cs => do
    let (first, rest) ← key? cs
    match skipBlanks rest with
    | '.' :: rest => do
      let (more, rest) ← dottedKey? bound (skipBlanks rest)
      some (first :: more, rest)
    | rest => some ([first], rest)

/-- The value without quotes that starts a text, and what follows it.  A date may be separated
    from a time by a space. -/
def scalar? (cs : List Char) : Option (Value × List Char) :=
  let run := cs.takeWhile isScalarChar
  let rest := cs.drop run.length
  let time := rest.tail.takeWhile isScalarChar
  if rest.head? = some ' ' ∧ Scalar.isDate run ∧ Scalar.isDatetime (run ++ ' ' :: time) then
    some (.datetime (String.ofList (run ++ ' ' :: time)), rest.tail.drop time.length)
  else (Scalar.ofText? run).map fun value => (value, rest)

section
variable (total : Nat) (inner : List Char → Option (Value × List Char))

/-- The items of an array up to its closing bracket, and what follows. -/
def items? : (bound : Nat) → List Char → Option (List Value × List Char)
  | 0, _ => none
  | bound + 1, cs => do
    match ← skipTrivia? false cs with
    | ']' :: rest => some ([], rest)
    | cs => do
      let (first, rest) ← inner cs
      match ← skipTrivia? false rest with
      | ']' :: rest => some ([first], rest)
      | ',' :: rest => do
        let (more, rest) ← items? bound rest
        some (first :: more, rest)
      | _ => none

/-- A key/value pair, and what follows it. -/
def pair? (bound : Nat) (cs : List Char) : Option ((List String × Value) × List Char) := do
  let (path, rest) ← dottedKey? bound cs
  match rest with
  | '=' :: rest => do
    let (value, rest) ← inner (skipBlanks rest)
    some ((path, value), rest)
  | _ => none

/-- The entries of an inline table up to its closing brace, and what follows. -/
def inlineEntries? : (bound : Nat) → Entries → List Char → Option (Entries × List Char)
  | 0, _, _ => none
  | bound + 1, entries, cs => do
    match ← skipTrivia? false cs with
    | '\x7d' :: rest => some (entries, rest)
    | cs => do
      let ((path, value), rest) ← pair? inner bound cs
      let entries ← entries.assign? .headed path value
      match ← skipTrivia? false rest with
      | '\x7d' :: rest => some (entries, rest)
      | ',' :: rest => inlineEntries? bound entries rest
      | _ => none

/-- The value that starts a text, `inner` reading the values inside it, and what follows it. -/
def valueWith? (bound : Nat) (cs : List Char) : Option (Value × List Char) :=
  match cs with
  | '[' :: rest => do
    let (items, rest) ← items? inner bound rest
    some (.array false items, rest)
  | '\x7b' :: rest => do
    let (entries, rest) ← inlineEntries? inner bound [] rest
    some (.table .inlined entries, rest)
  | c :: _ =>
    if c = '"' ∨ c = '\'' then do
      let (text, rest) ← quoted? cs
      some (.string (String.ofList text)
        ⟨total - byteLength cs, total - byteLength rest⟩, rest)
    else scalar? cs
  | [] => none

end

/-- The value that starts a text, and what follows it; the whole text has `total` bytes. -/
def value? (total : Nat) : (bound : Nat) → List Char → Option (Value × List Char)
  | 0, _ => none
  | bound + 1, cs => valueWith? total (value? total bound) (bound + 1) cs

/-- A line of a document. -/
inductive Statement where
  | table (path : List String)
  | element (path : List String)
  | assignment (path : List String) (value : Value)
deriving Repr

/-- The header or key/value pair that starts a text, and what follows its line. -/
def statement? (total bound : Nat) (cs : List Char) : Option (Statement × List Char) :=
  match cs with
  | '[' :: '[' :: rest => do
    let (path, rest) ← dottedKey? bound (skipBlanks rest)
    match rest with
    | ']' :: ']' :: rest => do
      let rest ← endLine? false rest
      some (.element path, rest)
    | _ => none
  | '[' :: rest => do
    let (path, rest) ← dottedKey? bound (skipBlanks rest)
    match rest with
    | ']' :: rest => do
      let rest ← endLine? false rest
      some (.table path, rest)
    | _ => none
  | cs => do
    let ((path, value), rest) ← pair? (value? total bound) bound cs
    let rest ← endLine? false rest
    some (.assignment path value, rest)

/-- The statements of a text. -/
def statements? (total : Nat) : (bound : Nat) → List Char → Option (List Statement)
  | 0, _ => none
  | bound + 1, cs => do
    match ← skipTrivia? false cs with
    | [] => some []
    | cs => do
      let (first, rest) ← statement? total (bound + 1) cs
      let more ← statements? total bound rest
      some (first :: more)

/-- The table that statements make up, following those that made up `entries`; assignments go to
    the table at `current`. -/
def entriesOf? (current : List String) (entries : Entries) : List Statement → Option Entries
  | [] => some entries
  | .table path :: rest => do
    let entries ← entries.openTable? path
    entriesOf? path entries rest
  | .element path :: rest => do
    let entries ← entries.openElement? path
    entriesOf? path entries rest
  | .assignment path value :: rest => do
    let entries ← entries.descend? false (fun _ below => below.assign? .headed path value)
      current .headed
    entriesOf? current entries rest

/-- A text without a byte order mark in front. -/
def dropByteOrderMark : List Char → List Char
  | '\ufeff' :: rest => rest
  | cs => cs

/-- The table that a text denotes. -/
def parse? (text : String) : Option Entries := do
  let cs := dropByteOrderMark text.toList
  let statements ← statements? text.utf8ByteSize (cs.length + 1) cs
  entriesOf? [] [] statements

end InterfaceGuards.Toml
