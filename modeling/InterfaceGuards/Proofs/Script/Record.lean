/-
  Names, values and records as expressions of scripts.

  * `Accessor.term`, `Literal.term`, `Primitive.term`, `Expr.term`: the expressions that accessors,
    literals, zero values and the records of factories are written as.
  * `Accessor.text_term`, …, `Expr.same_code`: their text is the text that is generated.
  * `Expr.Splices`: what stands in the records of an expression for objects and types.
-/
import InterfaceGuards.Proofs.Code.Same
import InterfaceGuards.Proofs.Script.Statement
import InterfaceGuards.Script.Factory

namespace InterfaceGuards

open Script (Environment Quoted Term Value)

/-! ## Accessors -/

namespace Script.Accessor

/-- The expression that an accessor is written as. -/
def term (a : Accessor) : Term :=
  a.keys.foldl (fun t key => .property t (.single key)) (.variable a.base)

theorem term_property (a : Accessor) (name : String) :
    (a.property name).term = .property a.term (.single name) := by
  simp [term, property]

/-- **The text of an accessor is the text of its expression.** -/
@[simp] theorem text_term (a : Accessor) (indent : Code.Indent) (levels : Nat) :
    (Code.shift levels a.term.code).text indent = a.text := by
  suffices h : ∀ (keys : List String) (t : Term) (written : String),
      (Code.shift levels t.code).text indent = written →
      (Code.shift levels (keys.foldl (fun t key => .property t (.single key)) t).code).text indent =
        keys.foldl (fun written key => written ++ access key) written from
    h a.keys _ _ (by simp [Term.code])
  intro keys
  induction keys with
  | nil => exact fun _ _ h => h
  | cons key keys ih =>
    intro t written h
    exact ih _ _ (by simp [Term.code, access, Quoted.single, h, String.append_assoc])

end Script.Accessor

/-! ## Values -/

namespace Literal

/-- The expression that a literal is written as. -/
def term : Literal → Term
  | .string text => .string (.double text)
  | .number x => .number (.of x)
  | .boolean b => .boolean b

@[simp] theorem text_term (x : Literal) (indent : Code.Indent) (levels : Nat) :
    (Code.shift levels x.term.code).text indent = x.expression := by
  cases x with
  | string | number => simp [term, Term.code, expression, Quoted.double, Script.Numeral.of]
  | boolean b => cases b <;> simp [term, Term.code, expression]

@[simp] theorem eval_term (x : Literal) (env : Environment) :
    x.term.eval env = .ok (.ofLiteral x) := by
  cases x <;> simp [term, Term.eval, Value.ofLiteral, Quoted.double, Script.Numeral.of]

end Literal

namespace Primitive

/-- The expression that the zero value of a primitive kind is written as. -/
def term : Primitive → Term
  | .number => .number (.of (.zero false))
  | .string => .string (.single "")
  | .boolean => .boolean false
  | .bigint => .bigint 0
  | .null => .null
  | .function => .emptyFunction

@[simp] theorem text_term (kind : Primitive) (indent : Code.Indent) (levels : Nat) :
    (Code.shift levels kind.term.code).text indent = kind.zeroValue := by
  cases kind <;> rfl

end Primitive

/-! ## Records -/

namespace Script

/-- An expression cast to a type, if there is one. -/
def Term.castTo : Option String → Term → Term
  | some type, t => .cast t type
  | none, t => t

mutual

/-- The expression that a default value is written as. -/
def Expr.term : Expr → Term
  | .newDate => .newDate
  | .emptyArray => .emptyArray
  | .literal x => x.term
  | .zero kind => kind.term
  | .undefined => .undefined
  | .record entries spread cast =>
    .frozen (.sealed (Term.castTo cast (.object (Expr.terms entries) spread)))

/-- The entries that the entries of a record are written as. -/
def Expr.terms : List (String × Expr) → List (Quoted × Term)
  | [] => []
  | (name, e) :: rest => (.double name, e.term) :: Expr.terms rest

end

/-- The line for the entries of another object. -/
theorem same_spreadCode (spread : Option String) :
    Code.Same (spreadCode spread) (Code.deeper (spreadLine spread)) := by
  cases spread with
  | none => exact .rfl
  | some object => exact .rfl

/-- A cast stands behind the expression. -/
theorem same_castTo (cast : Option String) (t : Term) :
    Code.Same (t.code ++ castCode cast) (Term.castTo cast t).code := by
  cases cast with
  | none => simpa [castCode, Term.castTo] using Code.Same.rfl
  | some type => exact .rfl

mutual

/-- **The text of a default value is the text of its expression.** -/
theorem Expr.same_code : ∀ e : Expr, Code.Same e.code e.term.code
  | .newDate | .emptyArray | .undefined => .rfl
  | .literal x => fun _ _ => by simp [Expr.code, Expr.term]
  | .zero kind => fun _ _ => by simp [Expr.code, Expr.term]
  | .record entries spread cast => by
    intro indent k
    have hentries := Expr.same_entriesCode spread.isNone entries indent k
    have hspread := same_spreadCode spread indent k
    have hcast := same_castTo cast (.object (Expr.terms entries) spread) indent k
    simp only [Code.deeper] at hentries hspread
    simp [Expr.code, Expr.term, Term.code, ← hcast, Code.deeper, hentries, hspread,
      ← String.toList_inj]

theorem Expr.same_entriesCode (atEnd : Bool) : ∀ entries : List (String × Expr),
    Code.Same (Expr.entriesCode atEnd entries)
      (Code.deeper (Term.entriesCode atEnd (Expr.terms entries)))
  | [] => .rfl
  | (name, e) :: rest => by
    intro indent k
    have hvalue := (Expr.same_code e).deeper indent k
    have hrest := Expr.same_entriesCode atEnd rest indent k
    have hend : (Expr.terms rest).isEmpty = rest.isEmpty := by
      rcases rest with _ | ⟨_, _⟩ <;> rfl
    have hcomma : (Code.shift k (entryEnd (atEnd && rest.isEmpty))).text indent =
        if atEnd && (Expr.terms rest).isEmpty then "\n" else ",\n" := by
      rw [hend, entryEnd]
      split_ifs <;> simp
    rw [Expr.entriesCode, Expr.terms, Term.entriesCode]
    simp only [Code.deeper] at hvalue hrest ⊢
    simp only [List.cons_append, Code.shift_cons, Code.shift_append, Code.text_cons,
      Code.text_append, Code.Piece.shift, Code.Piece.text, hvalue, hrest, hcomma, Quoted.double,
      Nat.zero_add, String.append_assoc]

end

/-! ## What is spliced into records -/

/-- What is spliced into an expression: the objects whose entries end its records, and the types that
    its records are cast to, each of which satisfies a predicate. -/
inductive Expr.Splices (object type : String → Prop) : Expr → Prop
  | newDate : Splices object type .newDate
  | emptyArray : Splices object type .emptyArray
  | literal (x : Literal) : Splices object type (.literal x)
  | zero (kind : Primitive) : Splices object type (.zero kind)
  | undefined : Splices object type .undefined
  | record {entries : List (String × Expr)} {spread cast : Option String} :
      (∀ entry ∈ entries, Splices object type entry.2) →
      (∀ name ∈ spread, object name) → (∀ name ∈ cast, type name) →
      Splices object type (.record entries spread cast)

end Script

end InterfaceGuards
