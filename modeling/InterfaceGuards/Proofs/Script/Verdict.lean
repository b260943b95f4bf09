/-
  Verdicts of guards: conditions that answer, and statements that decide, a proposition.

  * `Answers e P`: the evaluation gives the truth value of `P`.
  * `Decides env ss P`: the statements come to their end when `P` holds, and return `false` when it
    does not.
  * `decides_isObject`, …: what the statement of each check decides, given what its parts decide.
  * `Environment.Offers`: calls of a helper do what the helper is for; `offers_of_definition` says
    that the definitions of the helpers see to it.
-/
import InterfaceGuards.Proofs.Result
import InterfaceGuards.Proofs.Script.Reading
import Mathlib.Data.List.Forall2

namespace InterfaceGuards.Script

/-- The evaluation gives the truth value of `P`. -/
def Answers (e : Evaluation Value) (P : Prop) : Prop :=
  (P ∧ e = .ok (.boolean true)) ∨ (¬ P ∧ e = .ok (.boolean false))

/-- The statements come to their end when `P` holds, and return `false` when it does not. -/
def Decides (env : Environment) (ss : List Statement) (P : Prop) : Prop :=
  (P ∧ Statement.runAll env ss = .ok none) ∨
    (¬ P ∧ Statement.runAll env ss = .ok (some (.boolean false)))

variable {env : Environment} {ss ts : List Statement} {P Q : Prop} {a : Accessor} {v : Value}

theorem Answers.of_eq {e : Evaluation Value} {b : Bool} (h : e = .ok (.boolean b)) :
    Answers e (b = true) := by
  cases b
  · exact .inr ⟨by simp, h⟩
  · exact .inl ⟨rfl, h⟩

theorem Answers.congr {e : Evaluation Value} (h : Answers e P) (hPQ : P ↔ Q) : Answers e Q := by
  rwa [Answers, ← hPQ]

theorem Answers.eq_true {e : Evaluation Value} (h : Answers e P) (hP : P) :
    e = .ok (.boolean true) := by
  rcases h with h | h
  · exact h.2
  · exact absurd hP h.1

theorem Answers.eq_false {e : Evaluation Value} (h : Answers e P) (hP : ¬ P) :
    e = .ok (.boolean false) := by
  rcases h with h | h
  · exact absurd h.1 hP
  · exact h.2

/-! ## Deciding -/

namespace Decides

theorem congr (h : Decides env ss P) (hPQ : P ↔ Q) : Decides env ss Q := by
  rwa [Decides, ← hPQ]

theorem nil : Decides env [] True := .inl ⟨trivial, by rw [Statement.runAll]⟩

/-- What follows only matters when the first part comes to its end. -/
theorem append (h : Decides env ss P) (h' : P → Decides env ts Q) :
    Decides env (ss ++ ts) (P ∧ Q) := by
  rcases h with ⟨hP, h⟩ | ⟨hP, h⟩
  · rcases h' hP with ⟨hQ, h'⟩ | ⟨hQ, h'⟩
    · exact .inl ⟨⟨hP, hQ⟩, by rw [Statement.runAll_append, h]; exact h'⟩
    · exact .inr ⟨fun hPQ => hQ hPQ.2, by rw [Statement.runAll_append, h]; exact h'⟩
  · exact .inr ⟨fun hPQ => hP hPQ.1, by rw [Statement.runAll_append, h]; rfl⟩

/-- **A body of checks answers what the checks decide.** -/
theorem answers (h : Decides env ss P) :
    Answers (returned (Statement.runAll env (ss ++ [returnsTrue]))) P := by
  rcases h with ⟨hP, h⟩ | ⟨hP, h⟩
  · exact .inl ⟨hP, by rw [Statement.runAll_append, h]; rfl⟩
  · exact .inr ⟨hP, by rw [Statement.runAll_append, h]; rfl⟩

/-- A statement that refuses unless a condition holds decides the condition. -/
theorem refuse_not {t : Term} (h : Answers (t.eval env) P) :
    Decides env [.refuse (.not t)] P := by
  rcases h with ⟨hP, h⟩ | ⟨hP, h⟩
  · refine .inl ⟨hP, ?_⟩
    rw [Statement.runAll_singleton, Statement.run, Term.eval, h]; rfl
  · refine .inr ⟨hP, ?_⟩
    rw [Statement.runAll_singleton, Statement.run, Term.eval, h]; rfl

end Decides

/-! ## Passing -/

/-- The statements come to their end. -/
def Passes (env : Environment) (ss : List Statement) : Prop := Statement.runAll env ss = .ok none

theorem Decides.passes (h : Decides env ss P) (hP : P) : Passes env ss := by
  rcases h with h | h
  · exact h.2
  · exact absurd hP h.1

theorem Passes.nil : Passes env [] := by rw [Passes, Statement.runAll]

theorem Passes.append (h : Passes env ss) (h' : Passes env ts) : Passes env (ss ++ ts) := by
  rw [Passes, Statement.runAll_append, h]
  exact h'

theorem Passes.returns (h : Passes env ss) :
    returned (Statement.runAll env (ss ++ [returnsTrue])) = .ok (.boolean true) := by
  rw [Statement.runAll_append, h]; rfl

/-! ## Checks -/

theorem decides_isDate (hv : a.term.eval env = .ok v) :
    Decides env [(Check.isDate a).statement] (v.isDate = true) := by
  refine .refuse_not (.of_eq ?_)
  rw [Term.eval, Term.eval, hv]; rfl

theorem decides_equals (hv : a.term.eval env = .ok v) (x : Literal) :
    Decides env [(Check.equals a x).statement] (v.same (.ofLiteral x) = true) := by
  refine .refuse_not (.of_eq ?_)
  rw [Term.eval, Term.eval, hv, x.eval_term]; rfl

theorem decides_isNull (hv : a.term.eval env = .ok v) :
    Decides env [(Check.isNull a).statement] (v = .null) := by
  refine .refuse_not (Answers.congr (.of_eq (b := v.same .null) ?_) Value.same_null)
  rw [Term.eval, Term.eval, hv, Term.eval]; rfl

theorem decides_hasKind (hv : a.term.eval env = .ok v) (kind : Primitive) :
    Decides env [(Check.hasKind a kind).statement] (v.typeOf = kind.name) := by
  refine .refuse_not (Answers.congr (.of_eq (b := v.typeOf == kind.name) ?_) beq_iff_eq)
  rw [Term.eval, Term.eval, Term.eval, Term.eval, hv]; rfl

theorem runAll_whenPresent (hv : a.term.eval env = .ok v) (checks : List Check) :
    Statement.runAll env [(Check.whenPresent a checks).statement] =
      if v.same .undefined then .ok none
      else Statement.runAll env (Check.statements checks) := by
  rw [Statement.runAll_singleton, Check.statement, Statement.run, Term.eval, hv,
    Term.eval]
  cases hu : v.same .undefined <;> simp [bind, Except.bind, hu, Value.isTruthy]

/-- A check that is made when something is there decides nothing when it is not. -/
theorem decides_whenPresent {checks : List Check} (hv : a.term.eval env = .ok v)
    (h : Decides env (Check.statements checks) P) :
    Decides env [(Check.whenPresent a checks).statement] (v = .undefined ∨ P) := by
  by_cases hu : v.same .undefined
  · exact .inl ⟨.inl (Value.same_undefined.1 hu), by rw [runAll_whenPresent hv, if_pos hu]⟩
  · rw [Decides, runAll_whenPresent hv, if_neg hu]
    rw [Value.same_undefined] at hu
    rcases h with ⟨hP, h⟩ | ⟨hP, h⟩
    · exact .inl ⟨.inr hP, h⟩
    · exact .inr ⟨by rintro (h' | h'); exacts [hu h', hP h'], h⟩

theorem allHold_conditions {alternatives : List (List Check)} {Ps : List Prop}
    (h : List.Forall₂ (fun checks P => Decides env (Check.statements checks) P) alternatives Ps) :
    (∃ P ∈ Ps, P) ∧ Term.allHold env (Check.conditions alternatives) = .ok false ∨
      (¬ ∃ P ∈ Ps, P) ∧ Term.allHold env (Check.conditions alternatives) = .ok true := by
  induction h with
  | nil => exact .inr ⟨by simp, by rw [Check.conditions, Term.allHold]⟩
  | @cons checks P alternatives Ps hP _ ih =>
    rw [Check.conditions, Term.allHold, Term.eval, Term.eval]
    rcases hP.answers with ⟨hP, h⟩ | ⟨hP, h⟩
    · exact .inl ⟨⟨P, by simp, hP⟩, by rw [h]; rfl⟩
    · rw [h]
      rcases ih with ⟨hPs, ih⟩ | ⟨hPs, ih⟩
      · obtain ⟨Q, hQ, hq⟩ := hPs
        exact .inl ⟨⟨Q, by simp [hQ], hq⟩, ih⟩
      · refine .inr ⟨?_, ih⟩
        rintro ⟨Q, hQ, hq⟩
        rcases List.mem_cons.1 hQ with rfl | hQ
        · exact hP hq
        · exact hPs ⟨Q, hQ, hq⟩

/-- **A union is decided by its alternatives**, each of which returns from a function of its own. -/
theorem decides_someAlternative {alternatives : List (List Check)} {Ps : List Prop}
    (h : List.Forall₂ (fun checks P => Decides env (Check.statements checks) P) alternatives Ps) :
    Decides env [(Check.someAlternative alternatives).statement] (∃ P ∈ Ps, P) := by
  rw [Decides, Statement.runAll_singleton, Check.statement, Statement.run]
  rcases allHold_conditions h with ⟨hP, h⟩ | ⟨hP, h⟩
  · exact .inl ⟨hP, by rw [h]; rfl⟩
  · exact .inr ⟨hP, by rw [h]; rfl⟩

/-- What is not there passes every check that is made when it is. -/
theorem passes_whenPresent_undefined (hv : a.term.eval env = .ok .undefined) (checks : List Check) :
    Passes env [(Check.whenPresent a checks).statement] := by
  rw [Passes, runAll_whenPresent hv]; rfl

theorem passes_whenPresent {checks : List Check} (hv : a.term.eval env = .ok v)
    (h : Passes env (Check.statements checks)) :
    Passes env [(Check.whenPresent a checks).statement] := by
  rw [Passes, runAll_whenPresent hv, h, ite_self]

/-- Passing the first alternative is enough, whatever the others do. -/
theorem passes_someAlternative {checks : List Check} (h : Passes env (Check.statements checks))
    (alternatives : List (List Check)) :
    Passes env [(Check.someAlternative (checks :: alternatives)).statement] := by
  rw [Passes, Statement.runAll_singleton, Check.statement, Statement.run, Check.conditions,
    Term.allHold, Term.eval, Term.eval, h.returns]
  rfl

/-! ## Calls -/

theorem decides_call {function : String} (hv : a.term.eval env = .ok v)
    (h : Answers (env.call function v none) P) :
    Decides env [.refuse (.not (.call function a.term))] P := by
  refine .refuse_not ?_
  rw [Term.eval, hv]
  exact h

/-- Calls of a helper do what the helper is for: it tells objects from other values, or passes
    arrays all of whose elements pass a test. -/
def Environment.Offers (env : Environment) : Helper → Prop
  | .isUnknownObject =>
    ∀ v, Answers (env.call Helper.isUnknownObject.id v none) (v.isObject = true)
  | .validateVector =>
    ∀ (v : Value) (test : Value → Evaluation Value) (P : Value → Prop),
      (∀ es, v.elements? = some es → ∀ w ∈ es, Answers (test w) (P w)) →
      Answers (env.call Helper.validateVector.id v (some test))
        (∃ es, v.elements? = some es ∧ ∀ w ∈ es, P w)

theorem decides_isObject (h : env.Offers .isUnknownObject) (hv : a.term.eval env = .ok v) :
    Decides env [(Check.isObject a).statement] (v.isObject = true) :=
  decides_call hv (h v)

theorem eval_value_bind (env : Environment) (w : Value) :
    Accessor.value.term.eval (env.bind "value" w) = .ok w := rfl

/-- **An array is decided by its elements**, each of which is called `value` in turn. -/
theorem decides_everyElement {checks : List Check} {P : Value → Prop}
    (ho : env.Offers .validateVector) (hv : a.term.eval env = .ok v)
    (h : ∀ es, v.elements? = some es → ∀ w ∈ es,
      Decides (env.bind "value" w) (Check.statements checks) (P w)) :
    Decides env [(Check.everyElement a checks).statement]
      (∃ es, v.elements? = some es ∧ ∀ w ∈ es, P w) := by
  refine .refuse_not ?_
  rw [Term.eval, hv]
  exact ho v _ P fun es hes w hw => (h es hes w hw).answers

/-! ## Helpers -/

theorem call_eq {function : String} {f : Callable} (h : env.functions function = some f) :
    env.call function = f := by
  funext v callback
  rw [Environment.call, h]

/-- The opposite of what a test says. -/
def negation (test : Value → Evaluation Value) (w : Value) : Evaluation Value := do
  let v ← test w
  .ok (.boolean !v.isTruthy)

theorem anyElement_negation {test : Value → Evaluation Value} {P : Value → Prop} :
    ∀ {es : List Value}, (∀ w ∈ es, Answers (test w) (P w)) →
      (∀ w ∈ es, P w) ∧ anyElement (negation test) es = .ok false ∨
        (¬ ∀ w ∈ es, P w) ∧ anyElement (negation test) es = .ok true
  | [], _ => .inl ⟨by simp, by rw [anyElement]⟩
  | w :: es, h => by
    rw [anyElement, negation]
    rcases h w (by simp) with ⟨hw, h'⟩ | ⟨hw, h'⟩
    · rw [h']
      have hrest : ∀ u ∈ es, Answers (test u) (P u) := fun u hu => h u (by simp [hu])
      rcases anyElement_negation hrest with ⟨hes, ih⟩ | ⟨hes, ih⟩
      · exact .inl ⟨List.forall_mem_cons.2 ⟨hw, hes⟩, ih⟩
      · exact .inr ⟨fun hall => hes fun u hu => hall u (by simp [hu]), ih⟩
    · rw [h']
      exact .inr ⟨fun hall => hw (hall w (by simp)), rfl⟩

/-- A parameter has the value that the function is called with. -/
theorem lookup_param (d : Definition) (functions : String → Option Callable) (v : Value)
    (callback : Option (Value → Evaluation Value)) :
    (d.environment functions v callback).lookup d.param.name = .ok v := by
  simp [Environment.lookup, Definition.environment]

theorem answers_isUnknownObject (functions : String → Option Callable) (v : Value) :
    Answers (Helper.isUnknownObject.definition.apply functions v none) (v.isObject = true) := by
  refine Answers.congr (.of_eq (b := v.typeOf == "object" && !(v.same .null)) ?_) ?_
  · set env := Helper.isUnknownObject.definition.environment functions v none
    have hv : env.lookup "value" = .ok v := lookup_param ..
    show returned (Statement.runAll env [.returns _]) = _
    rw [Statement.runAll_singleton, Statement.run]
    simp only [Term.eval, hv, bind, Except.bind, Quoted.single]
    cases ho : v.typeOf == "object" <;> simp [Value.same, Value.isTruthy, returned, Except.map, ho]
  · rw [Value.isObject_iff]
    simp [← Value.same_null]

theorem answers_validateVector (functions : String → Option Callable) (v : Value)
    {test : Value → Evaluation Value} {P : Value → Prop}
    (h : ∀ es, v.elements? = some es → ∀ w ∈ es, Answers (test w) (P w)) :
    Answers (Helper.validateVector.definition.apply functions v (some test))
      (∃ es, v.elements? = some es ∧ ∀ w ∈ es, P w) := by
  set env := Helper.validateVector.definition.environment functions v (some test)
  have hv : (Term.variable "value").eval env = .ok v := lookup_param ..
  have not_array : (Term.not (.isArray (.variable "value"))).eval env =
      .ok (.boolean !v.elements?.isSome) := by
    rw [Term.eval, Term.eval, hv]; rfl
  have not_valid (w : Value) : (Term.not (.call "validate" (.variable "i"))).eval
      (env.bind "i" w) = negation test w := rfl
  show Answers (returned (Statement.runAll env (.refuse _ :: _))) _
  rw [runAll_refuse not_array]
  cases hes : v.elements? with
  | none => exact .inr ⟨by simp, rfl⟩
  | some es =>
    rw [if_neg (by simp), Statement.runAll, Statement.run, hv]
    simp only [bind, Except.bind, hes, not_valid]
    rcases anyElement_negation (h es hes) with ⟨hall, h⟩ | ⟨hall, h⟩
    · exact .inl ⟨⟨es, rfl, hall⟩, by rw [h]; rfl⟩
    · exact .inr ⟨by rintro ⟨es', ⟨⟩, hall'⟩; exact hall hall', by rw [h]; rfl⟩

/-- **The definitions of the helpers do what the helpers are for.** -/
theorem offers_of_definition {h : Helper} {functions : String → Option Callable}
    (hf : env.functions h.id = some (h.definition.apply functions)) : env.Offers h := by
  cases h with
  | isUnknownObject =>
    intro v
    rw [call_eq hf]
    exact answers_isUnknownObject functions v
  | validateVector =>
    intro v test P h
    rw [call_eq hf]
    exact answers_validateVector functions v h

end InterfaceGuards.Script
