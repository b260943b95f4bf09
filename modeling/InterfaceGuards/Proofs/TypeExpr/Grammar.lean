/-
  The grammar of type expressions.

  * `Nested`: brackets are properly nested.
  * `Rules.Union`, `Operand`, `Postfix`, `Primary`, …: one judgment for each line of the grammar.
    `R.Union scope s t r` says that the tokens from `s` up to `r` derive the type `t`.
  * `Derives`: the grammar as it is written.
  * `DerivesLongest`: the grammar when the result of a function type extends as far as it can.

  The grammar as it is written derives two types from `() => A | B`: a function, and the union of a
  function and `B`.
-/
import InterfaceGuards.TypeExpr.Parser

namespace InterfaceGuards.TypeExpr

/-! ## Brackets -/

/-- The pairs of brackets that group tokens. -/
def brackets : List (Char × Char) := [('(', ')'), ('[', ']'), ('\x7b', '\x7d')]

/-- Whether a token opens or closes a group. -/
def Token.isBracket (t : Token) : Bool :=
  brackets.any fun (opening, closing) => t == .mark opening || t == .mark closing

/-- From the first list of tokens on to the second, brackets are properly nested. -/
inductive Nested : List Located → List Located → Prop
  | nil {s} : Nested s s
  | token {k i s r} : k.isBracket = false → Nested s r → Nested (⟨k, i⟩ :: s) r
  | group {opening closing i j s s' r} : (opening, closing) ∈ brackets →
      Nested s (⟨.mark closing, j⟩ :: s') → Nested s' r → Nested (⟨.mark opening, i⟩ :: s) r

/-- A group in brackets that are properly nested. -/
inductive Group (opening closing : Char) : List Located → List Located → Prop
  | intro {i j s r} : Nested s (⟨.mark closing, j⟩ :: r) →
      Group opening closing (⟨.mark opening, i⟩ :: s) r

/-! ## Derivations -/

/-- What the grammar can be varied in: the groups that are passed over, and what may follow the
    result of a function type. -/
structure Rules where
  group : Char → Char → List Located → List Located → Prop
  follow : List Located → Prop

/-- The key of a property or method that a token is. -/
def Token.key? : Token → Option String
  | .ident name => some name
  | .string name => some name
  | .number value => some value.text
  | _ => none

/-- The type with the given alternatives; one alternative stands for itself. -/
def unionOf : List TypeExpr → TypeExpr
  | [t] => t
  | ts => .union ts

/-- A question mark that may be missing. -/
inductive Question : List Located → Bool → List Located → Prop
  | absent {s} : Question s false s
  | present {i s} : Question (⟨.mark '?', i⟩ :: s) true s

namespace Rules

variable (R : Rules) (scope : Scope)

mutual

/-- `type := ['|'] operand ('|' operand)*` -/
inductive Union : List Located → TypeExpr → List Located → Prop
  | plain {s ts r} : Alternatives s ts r → Union s (unionOf ts) r
  | bar {i s ts r} : Alternatives s ts r → Union (⟨.mark '|', i⟩ :: s) (unionOf ts) r

/-- `operand ('|' operand)*` -/
inductive Alternatives : List Located → List TypeExpr → List Located → Prop
  | one {s t r} : Operand s t r → Alternatives s [t] r
  | more {i s t s' ts r} : Operand s t (⟨.mark '|', i⟩ :: s') → Alternatives s' ts r →
      Alternatives s (t :: ts) r

/-- `operand := postfix ('&' postfix)*`; two parts or more are an intersection. -/
inductive Operand : List Located → TypeExpr → List Located → Prop
  | part {s t r} : Postfix s t r → Operand s t r
  | intersection {i s t s' r} : Postfix s t (⟨.mark '&', i⟩ :: s') → Parts s' r →
      Operand s (.unsupported "intersection") r

/-- `postfix ('&' postfix)*` -/
inductive Parts : List Located → List Located → Prop
  | one {s t r} : Postfix s t r → Parts s r
  | more {i s t s' r} : Postfix s t (⟨.mark '&', i⟩ :: s') → Parts s' r → Parts s r

/-- `postfix := primary ('[' ']')*` -/
inductive Postfix : List Located → TypeExpr → List Located → Prop
  | primary {s t r} : Primary s t r → Postfix s t r
  | array {i j s t r} : Postfix s t (⟨.mark '[', i⟩ :: ⟨.mark ']', j⟩ :: r) →
      Postfix s (.array t) r

/-- A type in brackets, a function type, or a type of one word. -/
inductive Primary : List Located → TypeExpr → List Located → Prop
  | parens {i j s t r} : Union s t (⟨.mark ')', j⟩ :: r) → Primary (⟨.mark '(', i⟩ :: s) t r
  | function {i j s s' t r} : R.group '(' ')' (⟨.mark '(', i⟩ :: s) (⟨.arrow, j⟩ :: s') →
      Union s' t r → R.follow r → Primary (⟨.mark '(', i⟩ :: s) .function r
  | object {i s ms r} : Members s ms r → Primary (⟨.mark '\x7b', i⟩ :: s) (.object ms) r
  | tuple {i s r} : R.group '[' ']' (⟨.mark '[', i⟩ :: s) r →
      Primary (⟨.mark '[', i⟩ :: s) (.unsupported "tuple") r
  | string {x i r} : Primary (⟨.string x, i⟩ :: r) (.literal (.string x)) r
  | number {x i r} : Primary (⟨.number x, i⟩ :: r) (.literal (.number x)) r
  | negative {x i j r} :
      Primary (⟨.mark '-', i⟩ :: ⟨.number x, j⟩ :: r) (.literal (.number (-x))) r
  | keyword {name t i r} : builtIn? name = some t → Primary (⟨.ident name, i⟩ :: r) t r
  | param {name i r} : builtIn? name = none → name ∈ scope.typeParams →
      Primary (⟨.ident name, i⟩ :: r) (.param name) r
  | elements {t i s r} : "Array" ∉ scope.typeParams → Arguments s [t] r →
      Primary (⟨.ident "Array", i⟩ :: s) (.array t) r
  | named {name ts i s r} : builtIn? name = none → name ∉ scope.typeParams → name ≠ "Array" →
      Arguments s ts r → Primary (⟨.ident name, i⟩ :: s) (.named name ts scope.origin) r

/-- `['<' type (',' type)* '>']` -/
inductive Arguments : List Located → List TypeExpr → List Located → Prop
  | none {s} : Arguments s [] s
  | some {i j s ts r} : Types s ts (⟨.mark '>', j⟩ :: r) → Arguments (⟨.mark '<', i⟩ :: s) ts r

/-- `type (',' type)*` -/
inductive Types : List Located → List TypeExpr → List Located → Prop
  | one {s t r} : Union s t r → Types s [t] r
  | more {i s t s' ts r} : Union s t (⟨.mark ',', i⟩ :: s') → Types s' ts r → Types s (t :: ts) r

/-- `(member (';' | ','))* [member] '}'` -/
inductive Members : List Located → List Member → List Located → Prop
  | nil {i r} : Members (⟨.mark '\x7d', i⟩ :: r) [] r
  | last {i s m r} : IsMember s m (⟨.mark '\x7d', i⟩ :: r) → Members s [m] r
  | more {c i s m s' ms r} : c = ';' ∨ c = ',' → IsMember s m (⟨.mark c, i⟩ :: s') →
      Members s' ms r → Members s (m :: ms) r

/-- `member := key ['?'] ':' type | key ['?'] '(' ... ')' [':' type]
    | '[' key ':' type ']' ':' type` -/
inductive IsMember : List Located → Member → List Located → Prop
  | property {k name b i j s s' t r} : k.key? = some name → Question s b (⟨.mark ':', j⟩ :: s') →
      Union s' t r → IsMember (⟨k, i⟩ :: s) ⟨some name, some t, b, .property⟩ r
  | method {k name b i s s' r} : k.key? = some name → Question s b s' → R.group '(' ')' s' r →
      IsMember (⟨k, i⟩ :: s) ⟨some name, none, b, .method⟩ r
  | typedMethod {k name b i j s s' s'' t r} : k.key? = some name → Question s b s' →
      R.group '(' ')' s' (⟨.mark ':', j⟩ :: s'') → Union s'' t r →
      IsMember (⟨k, i⟩ :: s) ⟨some name, none, b, .method⟩ r
  | index {key i i' j k l s t s' u r} :
      Union s t (⟨.mark ']', k⟩ :: ⟨.mark ':', l⟩ :: s') → Union s' u r →
      IsMember (⟨.mark '[', i⟩ :: ⟨.ident key, i'⟩ :: ⟨.mark ':', j⟩ :: s)
        ⟨none, some u, false, .index⟩ r

end

end Rules

/-! ## The two readings -/

/-- A type goes on here: with another alternative, another part, or the brackets of an array. -/
inductive Continues : List Located → Prop
  | alternative {i s} : Continues (⟨.mark '|', i⟩ :: s)
  | part {i s} : Continues (⟨.mark '&', i⟩ :: s)
  | array {i j s} : Continues (⟨.mark '[', i⟩ :: ⟨.mark ']', j⟩ :: s)

/-- The grammar as it is written. -/
def written : Rules := ⟨Group, fun _ => True⟩

/-- The grammar in which a function type ends only where a type does not go on. -/
def longest : Rules := ⟨Group, fun r => ¬ Continues r⟩

/-- The tokens derive the type in the grammar as it is written. -/
def Derives (scope : Scope) (tokens : List Located) (t : TypeExpr) : Prop :=
  written.Union scope tokens t []

/-- The tokens derive the type when the results of function types extend as far as they can. -/
def DerivesLongest (scope : Scope) (tokens : List Located) (t : TypeExpr) : Prop :=
  longest.Union scope tokens t []

end InterfaceGuards.TypeExpr
