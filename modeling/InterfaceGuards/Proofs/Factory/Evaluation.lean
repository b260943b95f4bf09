/-
  What the records of factories evaluate to.

  * `Expr.eval`: the value of an expression, given the properties of the objects it spreads.
  * `Expr.evalEntries`: the properties that the entries of a record define.
  * `Expr.Splices.eval_term`: that is the value of what is written for the expression, where the
    variables that it spreads hold objects with these properties.
-/
import InterfaceGuards.Proofs.Script.Record
import Mathlib.Data.List.Nodup

namespace InterfaceGuards

/-- The value that a factory gives to a member of a primitive kind. -/
def Primitive.zero : Primitive → Script.Value
  | .number => .number (.zero false)
  | .string => .string ""
  | .boolean => .boolean false
  | .bigint => .bigint 0
  | .null => .null
  | .function => .function []

namespace Script

section
variable (properties : String → List (String × Value))

/-- The properties of the object that a record spreads. -/
def spreadProperties : Option String → List (String × Value)
  | some object => properties object
  | none => []

mutual

/-- The value of an expression, `properties` being those of the objects that variables hold.

    A record is an object; of two entries with one name the later one counts, and what is spread
    comes last.  Freezing, sealing and casting an object give the object. -/
def Expr.eval : Expr → Value
  | .newDate => .date []
  | .emptyArray => .array [] []
  | .literal value => .ofLiteral value
  | .zero kind => kind.zero
  | .undefined => .undefined
  | .record entries spread _ =>
    .object (spreadProperties properties spread ++ (Expr.evalEntries entries).reverse)

/-- The properties that the entries of a record define, in order. -/
def Expr.evalEntries : List (String × Expr) → List (String × Value)
  | [] => []
  | (name, value) :: rest => (name, value.eval) :: Expr.evalEntries rest

end

end

variable {properties : String → List (String × Value)}

theorem Expr.evalEntries_eq_map (entries : List (String × Expr)) :
    Expr.evalEntries properties entries = entries.map fun e => (e.1, e.2.eval properties) := by
  induction entries with
  | nil => rfl
  | cons e es ih => rw [Expr.evalEntries, ih]; rfl

/-! ## Agreement with what is written -/

@[simp] theorem eval_primitive (kind : Primitive) (env : Environment) :
    kind.term.eval env = .ok kind.zero := by
  cases kind <;> rfl

theorem eval_castTo (cast : Option String) (t : Term) (env : Environment) :
    (Term.castTo cast t).eval env = t.eval env := by
  cases cast with
  | none => rfl
  | some type => rw [Term.castTo, Term.eval]

variable {env : Environment} {type : String → Prop}

theorem spread_eq {spread : Option String}
    (h : ∀ object ∈ spread, env.values object = some (.object (properties object))) :
    env.spread spread = .ok (spreadProperties properties spread) := by
  cases spread with
  | none => rfl
  | some object =>
    rw [Environment.spread, Environment.lookup, h object rfl]
    rfl

theorem evalEntries_terms : ∀ {entries : List (String × Expr)},
    (∀ entry ∈ entries, entry.2.term.eval env = .ok (entry.2.eval properties)) →
    Term.evalEntries env (Expr.terms entries) = .ok (Expr.evalEntries properties entries)
  | [], _ => by rw [Expr.terms, Term.evalEntries, Expr.evalEntries]
  | (name, e) :: rest, h => by
    obtain ⟨he, hrest⟩ := List.forall_mem_cons.1 h
    rw [Expr.terms, Term.evalEntries, Expr.evalEntries, he, evalEntries_terms hrest]
    rfl

/-- **What is written for an expression has the value of the expression**, where every variable that
    it spreads holds an object. -/
theorem Expr.Splices.eval_term {e : Expr}
    (h : e.Splices (fun object => env.values object = some (.object (properties object))) type) :
    e.term.eval env = .ok (e.eval properties) := by
  induction h with
  | newDate | emptyArray | undefined => rw [Expr.term, Term.eval, Expr.eval]
  | literal x => rw [Expr.term, x.eval_term, Expr.eval]
  | zero kind => rw [Expr.term, eval_primitive, Expr.eval]
  | record _ hspread _ ih =>
    rw [Expr.term, Term.eval, Term.eval, eval_castTo, Term.eval, Expr.eval, evalEntries_terms ih,
      spread_eq hspread]
    rfl

/-! ## Properties of records -/

theorem lookup_of_mem {name : String} {v : Value} : ∀ {ps : List (String × Value)},
    (ps.map Prod.fst).Nodup → (name, v) ∈ ps → ps.lookup name = some v
  | (key, w) :: ps, hn, h => by
    rw [List.map_cons, List.nodup_cons] at hn
    rw [List.lookup_cons]
    rcases List.mem_cons.1 h with h | h
    · cases h
      simp
    · have hmem : name ∈ ps.map Prod.fst := List.mem_map_of_mem (f := Prod.fst) h
      have hne : name ≠ key := fun he => hn.1 (he ▸ hmem)
      rw [beq_eq_false_iff_ne.2 hne]
      exact lookup_of_mem hn.2 h

/-- **A record has the property of every entry**, when no two entries have one name. -/
theorem property?_record {entries : List (String × Expr)} (hn : (entries.map Prod.fst).Nodup)
    {spread cast : Option String} (hs : spreadProperties properties spread = []) {name : String}
    {e : Expr} (he : (name, e) ∈ entries) :
    ((Expr.record entries spread cast).eval properties).property? name =
      some (e.eval properties) := by
  have hmem : (name, e.eval properties) ∈ (Expr.evalEntries properties entries).reverse := by
    rw [Expr.evalEntries_eq_map, List.mem_reverse]
    exact List.mem_map_of_mem (f := fun e : String × Expr => (e.1, e.2.eval properties)) he
  have hnodup : ((Expr.evalEntries properties entries).reverse.map Prod.fst).Nodup := by
    rw [Expr.evalEntries_eq_map, List.map_reverse, List.nodup_reverse, List.map_map]
    exact hn
  rw [Expr.eval, hs, List.nil_append, Value.property?, lookup_of_mem hnodup hmem]
  rfl

end Script

end InterfaceGuards
