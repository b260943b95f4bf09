/-
  Reading type expressions.

  * `TypeExpr.parse`: the type that a text denotes in a scope, or the first problem in it.

  The grammar, with the operators binding tighter from line to line:

      type     := ['|'] operand ('|' operand)*
      operand  := postfix ('&' postfix)*
      postfix  := primary ('[' ']')*
      primary  := '(' type ')' | '(' ... ')' '=>' type | object | '[' ... ']'
                | ['-'] number | string | name ['<' type (',' type)* '>']
      object   := '{' (member (';' | ','))* [member] '}'
      member   := key ['?'] ':' type | key ['?'] '(' ... ')' [':' type]
                | '[' name ':' type ']' ':' type

  Every function takes the tokens still to be read and gives those it leaves.
  `inner` reads a type inside brackets, and `bound` limits the repetitions of a
  list; both are made from the number of tokens, of which each level of
  brackets and each repetition takes at least one.
-/
import InterfaceGuards.TypeExpr.Token

namespace InterfaceGuards.TypeExpr

/-- The names in force where a type is written: the type parameters of its declaration, and the
    unit it stands in. -/
structure Scope where
  typeParams : List String
  origin : Option Path
deriving DecidableEq, Repr

/-- What reading gives: a value or the first problem. -/
abbrev Reading := Except SyntaxError

/-- The names that are read but stand for no supported type. -/
def unsupportedNames : List String :=
  ["any", "unknown", "undefined", "void", "never", "object", "symbol"]

/-- The type that a built-in name denotes. -/
def builtIn? (name : String) : Option TypeExpr :=
  match Primitive.ofKeyword? name with
  | some kind => some (.keyword kind)
  | none =>
    if name = "true" then some (.literal (.boolean true))
    else if name = "false" then some (.literal (.boolean false))
    else if unsupportedNames.contains name then some (.unsupported name)
    else none

section
variable (scope : Scope) (stop : Nat)

/-- The byte at which reading stands; `stop` is the end of the text. -/
def position : List Located → Nat
  | [] => stop
  | t :: _ => t.offset

/-- A problem met where reading stands. -/
def fail {α : Type} (problem : SyntaxProblem) (s : List Located) : Reading α :=
  .error ⟨problem, position stop s⟩

/-- What follows a punctuation mark, if it comes next. -/
def afterMark? (c : Char) : List Located → Option (List Located)
  | [] => none
  | t :: rest => if t.token = .mark c then some rest else none

/-- The next token. -/
def next? (s : List Located) : Option Token := s.head?.map Located.token

/-- What follows a punctuation mark that has to come next. -/
def expectMark (c : Char) (s : List Located) : Reading (List Located) :=
  match afterMark? c s with
  | some rest => .ok rest
  | none => fail stop (.expectedMark c (next? s)) s

/-- What follows the bracket that closes the group opened here, `depth` groups of the same kind
    being open already.  Brackets of other kinds do not count. -/
def afterGroup? (opening closing : Char) : (depth : Nat) → List Located → Option (List Located)
  | _, [] => none
  | depth, t :: rest =>
    if t.token = .mark opening then afterGroup? opening closing (depth + 1) rest
    else if t.token = .mark closing then
      if depth ≤ 1 then some rest else afterGroup? opening closing (depth - 1) rest
    else afterGroup? opening closing depth rest

/-- What follows the group that is opened here. -/
def skipGroup (opening closing : Char) (s : List Located) : Reading (List Located) :=
  match afterGroup? opening closing 0 s with
  | some rest => .ok rest
  | none => fail stop (.unclosed opening) s

/-- The array type with an element type for every pair of brackets that follows. -/
def arrays (element : TypeExpr) : List Located → TypeExpr × List Located
  | ⟨.mark '[', _⟩ :: ⟨.mark ']', _⟩ :: rest => arrays (.array element) rest
  | s => (element, s)

variable (inner : List Located → Reading (TypeExpr × List Located))

/-- The rest of a type-argument list, from a comma or the closing bracket on. -/
def moreArguments : (bound : Nat) → List Located → Reading (List TypeExpr × List Located)
  | 0, s => .ok ([], s)
  | bound + 1, s =>
    match afterMark? ',' s with
    | none => .ok ([], s)
    | some s => do
      let (first, s) ← inner s
      let (more, s) ← moreArguments bound s
      .ok (first :: more, s)

/-- The type arguments after a name, if there are any. -/
def typeArguments (bound : Nat) (s : List Located) : Reading (List TypeExpr × List Located) :=
  match afterMark? '<' s with
  | none => .ok ([], s)
  | some s => do
    let (first, s) ← inner s
    let (more, s) ← moreArguments inner bound s
    let s ← expectMark stop '>' s
    .ok (first :: more, s)

/-- The type that starts with a name. -/
def namedType (bound : Nat) (name : String) (s : List Located) :
    Reading (TypeExpr × List Located) :=
  match builtIn? name with
  | some type => .ok (type, s)
  | none =>
    if scope.typeParams.contains name then
      if next? s = some (.mark '<') then fail stop (.parameterWithArguments name) s
      else .ok (.param name, s)
    else do
      let (args, s) ← typeArguments stop inner bound s
      if name = "Array" then
        match args with
        | [element] => .ok (.array element, s)
        | _ => fail stop .arrayArity s
      else .ok (.named name args scope.origin, s)

/-- The key of a property or method. -/
def memberName : List Located → Reading (String × List Located)
  | [] => fail stop (.expectedMemberName none) []
  | t :: rest =>
    match t.token with
    | .ident name => .ok (name, rest)
    | .string name => .ok (name, rest)
    | .number value => .ok (value.text, rest)
    | found => fail stop (.expectedMemberName (some found)) (t :: rest)

/-- An index signature, after its opening bracket. -/
def indexSignature (s : List Located) : Reading (Member × List Located) :=
  match s with
  | ⟨.ident _, _⟩ :: s => do
    let s ← expectMark stop ':' s
    let (_, s) ← inner s
    let s ← expectMark stop ']' s
    let s ← expectMark stop ':' s
    let (type, s) ← inner s
    .ok (⟨none, some type, false, .index⟩, s)
  | s => fail stop .expectedKeyName s.tail

/-- A property or a method. -/
def namedMember (s : List Located) : Reading (Member × List Located) := do
  let (name, s) ← memberName stop s
  let (optional, s) :=
    match afterMark? '?' s with
    | some s => (true, s)
    | none => (false, s)
  if next? s = some (.mark '(') then do
    let s ← skipGroup stop '(' ')' s
    match afterMark? ':' s with
    | none => .ok (⟨some name, none, optional, .method⟩, s)
    | some s => do
      let (_, s) ← inner s
      .ok (⟨some name, none, optional, .method⟩, s)
  else do
    let s ← expectMark stop ':' s
    let (type, s) ← inner s
    .ok (⟨some name, some type, optional, .property⟩, s)

/-- A member of an object type. -/
def member (s : List Located) : Reading (Member × List Located) :=
  match afterMark? '[' s with
  | some s => indexSignature stop inner s
  | none => namedMember stop inner s

/-- What follows a member: a separator, or nothing before the closing brace. -/
def memberEnd (s : List Located) : Reading (List Located) :=
  match s with
  | [] => fail stop (.unclosed '\x7b') s
  | t :: rest =>
    if t.token = .mark ';' ∨ t.token = .mark ',' then .ok rest
    else if t.token = .mark '\x7d' then .ok s
    else fail stop (.expectedSeparator t.token) s

/-- The members of an object type up to its closing brace. -/
def members : (bound : Nat) → List Located → Reading (List Member × List Located)
  | 0, s => fail stop (.expectedMemberName none) s
  | bound + 1, s =>
    match afterMark? '\x7d' s with
    | some s => .ok ([], s)
    | none => do
      let (first, s) ← member stop inner s
      let s ← memberEnd stop s
      let (more, s) ← members bound s
      .ok (first :: more, s)

/-- A type in brackets, a function type, or a type of one word. -/
def primary (bound : Nat) (s : List Located) : Reading (TypeExpr × List Located) :=
  match s with
  | [] => fail stop (.expectedType none) s
  | t :: rest =>
    match t.token with
    | .mark '(' =>
      match afterGroup? '(' ')' 0 s with
      | some (⟨.arrow, _⟩ :: result) => do
        let (_, s) ← inner result
        .ok (.function, s)
      | _ => do
        let (type, s) ← inner rest
        let s ← expectMark stop ')' s
        .ok (type, s)
    | .mark '\x7b' => do
      let (ms, s) ← members stop inner bound rest
      .ok (.object ms, s)
    | .mark '[' => do
      let s ← skipGroup stop '[' ']' s
      .ok (.unsupported "tuple", s)
    | .mark '-' =>
      match rest with
      | ⟨.number value, _⟩ :: s => .ok (.literal (.number (-value)), s)
      | s => fail stop .expectedNumber s.tail
    | .string value => .ok (.literal (.string value), rest)
    | .number value => .ok (.literal (.number value), rest)
    | .ident name => namedType scope stop inner bound name rest
    | found => fail stop (.expectedType (some found)) s

/-- A primary type with the brackets of array types after it. -/
def arrayType (bound : Nat) (s : List Located) : Reading (TypeExpr × List Located) := do
  let (type, s) ← primary scope stop inner bound s
  .ok (arrays type s)

/-- The rest of an intersection; its parts are read and dropped. -/
def moreParts (width : Nat) : (bound : Nat) → List Located → Reading (List Located)
  | 0, s => .ok s
  | bound + 1, s =>
    match afterMark? '&' s with
    | none => .ok s
    | some s => do
      let (_, s) ← arrayType scope stop inner width s
      moreParts width bound s

/-- An operand of a union; an intersection is read but not supported. -/
def operand (bound : Nat) (s : List Located) : Reading (TypeExpr × List Located) := do
  let (type, s) ← arrayType scope stop inner bound s
  if next? s = some (.mark '&') then do
    let s ← moreParts scope stop inner bound bound s
    .ok (.unsupported "intersection", s)
  else .ok (type, s)

/-- The rest of a union. -/
def moreAlternatives (width : Nat) :
    (bound : Nat) → List Located → Reading (List TypeExpr × List Located)
  | 0, s => .ok ([], s)
  | bound + 1, s =>
    match afterMark? '|' s with
    | none => .ok ([], s)
    | some s => do
      let (first, s) ← operand scope stop inner width s
      let (more, s) ← moreAlternatives width bound s
      .ok (first :: more, s)

/-- A union; one alternative stands for itself. -/
def unionType (bound : Nat) (s : List Located) : Reading (TypeExpr × List Located) := do
  let (first, s) ← operand scope stop inner bound ((afterMark? '|' s).getD s)
  let (more, s) ← moreAlternatives scope stop inner bound bound s
  .ok (if more.isEmpty then first else .union (first :: more), s)

end

/-- A type, read with at most `bound` levels of brackets. -/
def typeExpr (scope : Scope) (stop : Nat) :
    (bound : Nat) → List Located → Reading (TypeExpr × List Located)
  | 0, s => fail stop (.expectedType none) s
  | bound + 1, s => unionType scope stop (typeExpr scope stop bound) bound s

/-- The type that a whole list of tokens denotes; `stop` is where their text ends. -/
def ofTokens (scope : Scope) (stop : Nat) (tokens : List Located) :
    Reading TypeExpr := do
  let (type, rest) ← typeExpr scope stop tokens.length tokens
  match rest with
  | [] => .ok type
  | t :: _ => fail stop (.unexpectedToken t.token) rest

/-- The type that a text denotes. -/
def parse (scope : Scope) (source : String) : Reading TypeExpr := do
  let tokens ← tokenize source
  ofTokens scope source.utf8ByteSize tokens

end InterfaceGuards.TypeExpr
