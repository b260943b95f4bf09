/-
  The functions that scripts call.

  * `Check.helpersAll`, `Check.callsAll`: the helpers that checks call, and the types whose guards
    they call.
  * `Statement.calledAll`, `Definition.called`: the names of the functions that statements and the
    functions of a script call; those that are built in are not counted.
  * `Check.mem_calledAll`: the statements that checks are written as call these helpers and guards,
    and nothing else; `called_factory`: factories call nothing.
-/
import InterfaceGuards.Proofs.Script.Reading

namespace InterfaceGuards.Script

/-! ## Checks -/

mutual

/-- The types whose guards a check calls, in order. -/
def Check.calls : Check → List String
  | .passesGuard type _ => [type]
  | .everyElement _ checks => Check.callsAll checks
  | .someAlternative alternatives => Check.callsEach alternatives
  | .whenPresent _ checks => Check.callsAll checks
  | _ => []

/-- The types whose guards several checks call. -/
def Check.callsAll : List Check → List String
  | [] => []
  | check :: checks => check.calls ++ Check.callsAll checks

/-- The types whose guards alternatives call. -/
def Check.callsEach : List (List Check) → List String
  | [] => []
  | checks :: alternatives => Check.callsAll checks ++ Check.callsEach alternatives

end

theorem Check.callsAll_append (xs ys : List Check) :
    Check.callsAll (xs ++ ys) = Check.callsAll xs ++ Check.callsAll ys := by
  induction xs with
  | nil => rfl
  | cons x xs ih => rw [List.cons_append, callsAll, callsAll, ih, List.append_assoc]

theorem Check.callsAll_flatMap {α : Type} (f : α → List Check) (xs : List α) :
    Check.callsAll (xs.flatMap f) = xs.flatMap fun x => Check.callsAll (f x) := by
  induction xs with
  | nil => rfl
  | cons x xs ih => rw [List.flatMap_cons, callsAll_append, ih, List.flatMap_cons]

mutual

/-- The helpers that a check calls, in order. -/
def Check.helpers : Check → List Helper
  | .isObject _ => [.isUnknownObject]
  | .everyElement _ checks => .validateVector :: Check.helpersAll checks
  | .someAlternative alternatives => Check.helpersEach alternatives
  | .whenPresent _ checks => Check.helpersAll checks
  | _ => []

/-- The helpers that several checks call. -/
def Check.helpersAll : List Check → List Helper
  | [] => []
  | check :: checks => check.helpers ++ Check.helpersAll checks

/-- The helpers that alternatives call. -/
def Check.helpersEach : List (List Check) → List Helper
  | [] => []
  | checks :: alternatives => Check.helpersAll checks ++ Check.helpersEach alternatives

end

theorem Check.helpersAll_append (xs ys : List Check) :
    Check.helpersAll (xs ++ ys) = Check.helpersAll xs ++ Check.helpersAll ys := by
  induction xs with
  | nil => rfl
  | cons x xs ih => rw [List.cons_append, helpersAll, helpersAll, ih, List.append_assoc]

theorem Check.helpersAll_flatMap {α : Type} (f : α → List Check) (xs : List α) :
    Check.helpersAll (xs.flatMap f) = xs.flatMap fun x => Check.helpersAll (f x) := by
  induction xs with
  | nil => rfl
  | cons x xs ih => rw [List.flatMap_cons, helpersAll_append, ih, List.flatMap_cons]

/-! ## Statements -/

mutual

/-- The names of the functions that an expression calls, in order. -/
def Term.called : Term → List String
  | .object entries _ => Term.calledEntries entries
  | .frozen t | .sealed t | .cast t _ | .property t _ => t.called
  | .group t | .typeOf t | .isDate t | .isArray t | .not t => t.called
  | .equal t u | .differ t u | .and t u => t.called ++ u.called
  | .call function t => function :: t.called
  | .callWith function t _ body => function :: (t.called ++ Statement.calledAll body)
  | .immediate body => Statement.calledAll body
  | .variable _ | .string _ | .number _ | .bigint _ | .boolean _ | .undefined | .null => []
  | .newDate | .emptyArray | .emptyObject | .emptyFunction => []

/-- The names of the functions that a statement calls. -/
def Statement.called : Statement → List String
  | .refuse condition => condition.called
  | .refuseAll conditions => Term.calledAll conditions
  | .refuseEach _ array condition => array.called ++ condition.called
  | .whenever condition body => condition.called ++ Statement.calledAll body
  | .returns t => t.called

/-- The names of the functions that several statements call. -/
def Statement.calledAll : List Statement → List String
  | [] => []
  | s :: ss => s.called ++ Statement.calledAll ss

/-- The names of the functions that several expressions call. -/
def Term.calledAll : List Term → List String
  | [] => []
  | t :: ts => t.called ++ Term.calledAll ts

/-- The names of the functions that the entries of an object call. -/
def Term.calledEntries : List (Quoted × Term) → List String
  | [] => []
  | (_, t) :: rest => t.called ++ Term.calledEntries rest

end

theorem Statement.calledAll_append (ss ts : List Statement) :
    Statement.calledAll (ss ++ ts) = Statement.calledAll ss ++ Statement.calledAll ts := by
  induction ss with
  | nil => rfl
  | cons s ss ih => rw [List.cons_append, calledAll, calledAll, ih, List.append_assoc]

/-- A function body that ends with `true` calls what the statements before that call. -/
theorem Statement.calledAll_returnsTrue (ss : List Statement) :
    Statement.calledAll (ss ++ [returnsTrue]) = Statement.calledAll ss := by
  rw [calledAll_append]
  simp [calledAll, called, returnsTrue, Term.called]

/-! ## Values -/

@[simp] theorem Accessor.called_term (a : Accessor) : a.term.called = [] := by
  suffices h : ∀ (keys : List String) (t : Term), t.called = [] →
      (keys.foldl (fun t key => .property t (.single key)) t).called = [] from
    h a.keys _ (by rw [Term.called])
  intro keys
  induction keys with
  | nil => exact fun _ h => h
  | cons key keys ih => exact fun t h => ih _ (by rw [Term.called, h])

@[simp] theorem called_literal (x : Literal) : x.term.called = [] := by
  cases x <;> rw [Literal.term, Term.called]

theorem called_castTo (cast : Option String) (t : Term) :
    (Term.castTo cast t).called = t.called := by
  cases cast with
  | none => rfl
  | some type => rw [Term.castTo, Term.called]

mutual

/-- **Records call nothing.** -/
theorem Expr.called_term : ∀ e : Expr, e.term.called = []
  | .newDate | .emptyArray | .undefined => by rw [Expr.term, Term.called]
  | .literal x => by rw [Expr.term, called_literal]
  | .zero kind => by cases kind <;> rw [Expr.term, Primitive.term, Term.called]
  | .record entries spread cast => by
    rw [Expr.term, Term.called, Term.called, called_castTo, Term.called,
      Expr.called_terms entries]

theorem Expr.called_terms : ∀ entries : List (String × Expr),
    Term.calledEntries (Expr.terms entries) = []
  | [] => by rw [Expr.terms, Term.calledEntries]
  | (name, e) :: rest => by
    rw [Expr.terms, Term.calledEntries, Expr.called_term e, Expr.called_terms rest]; rfl

end

/-! ## Statements of checks -/

/-- The names of some helpers and of the guards of some types. -/
def functionNames (helpers : List Helper) (types : List String) : List String :=
  helpers.map Helper.id ++ types.map guardName

theorem mem_functionNames_append {f : String} {hs hs' : List Helper} {ts ts' : List String} :
    f ∈ functionNames (hs ++ hs') (ts ++ ts') ↔
      f ∈ functionNames hs ts ∨ f ∈ functionNames hs' ts' := by
  simp only [functionNames, List.map_append, List.mem_append]
  exact or_or_or_comm

theorem functionNames_subset {hs hs' : List Helper} {ts ts' : List String} (hh : hs ⊆ hs')
    (ht : ts ⊆ ts') : functionNames hs ts ⊆ functionNames hs' ts' :=
  List.append_subset.2 ⟨List.subset_append_of_subset_left _ (List.map_subset _ hh),
    List.subset_append_of_subset_right _ (List.map_subset _ ht)⟩

mutual

/-- The statement that a check is written as calls the helpers and the guards that the check
    calls. -/
theorem Check.mem_called {f : String} : ∀ check : Check,
    f ∈ check.statement.called ↔ f ∈ functionNames check.helpers check.calls
  | .isDate a | .equals a _ | .isNull a | .hasKind a _ => by
    simp [statement, Statement.called, Term.called, helpers, calls, functionNames]
  | .isObject a | .passesGuard _ a => by
    simp [statement, Statement.called, Term.called, helpers, calls, functionNames, Helper.id,
      guardName]
  | .everyElement a checks => by
    have ih := Check.mem_calledAll checks (f := f)
    have hid : Helper.validateVector.id = "validateVector" := rfl
    simp [statement, Statement.called, Term.called, helpers, calls, functionNames, hid,
      Statement.calledAll_returnsTrue, ih]
  | .someAlternative alternatives => Check.mem_calledEach alternatives
  | .whenPresent a checks => by
    have ih := Check.mem_calledAll checks (f := f)
    simpa [statement, Statement.called, Term.called, helpers, calls] using ih

/-- **The statements that checks are written as** call the helpers and the guards that the checks
    call, and nothing else. -/
theorem Check.mem_calledAll {f : String} : ∀ checks : List Check,
    f ∈ Statement.calledAll (Check.statements checks) ↔
      f ∈ functionNames (Check.helpersAll checks) (Check.callsAll checks)
  | [] => by simp [statements, Statement.calledAll, helpersAll, callsAll, functionNames]
  | check :: checks => by
    rw [statements, Statement.calledAll, helpersAll, callsAll, mem_functionNames_append,
      List.mem_append, Check.mem_called check, Check.mem_calledAll checks]

theorem Check.mem_calledEach {f : String} : ∀ alternatives : List (List Check),
    f ∈ Term.calledAll (Check.conditions alternatives) ↔
      f ∈ functionNames (Check.helpersEach alternatives) (Check.callsEach alternatives)
  | [] => by simp [conditions, Term.calledAll, helpersEach, callsEach, functionNames]
  | checks :: rest => by
    rw [conditions, Term.calledAll, helpersEach, callsEach, mem_functionNames_append,
      List.mem_append, Check.mem_calledEach rest, Term.called, Term.called,
      Statement.calledAll_returnsTrue, Check.mem_calledAll checks]

end

end InterfaceGuards.Script

namespace InterfaceGuards

open Script (Check Definition Statement functionNames)

/-- The names of the functions that a function calls. -/
def Script.Definition.called (d : Definition) : List String :=
  (d.param.value?.map Script.Term.called).getD [] ++ Statement.calledAll d.body

/-- **A factory** calls nothing. -/
theorem InterfaceScript.called_factory (i : InterfaceScript) : i.factoryDefinition.called = [] := by
  simp [Script.Definition.called, factoryDefinition, Statement.calledAll, Statement.called,
    Script.Term.called, Script.Expr.called_term]

/-- **A guard** calls the helpers and the guards that its checks call, and nothing else. -/
theorem InterfaceScript.mem_called_guard {f : String} (i : InterfaceScript) :
    f ∈ i.guardDefinition.called ↔
      f ∈ functionNames (Check.helpersAll i.checks) (Check.callsAll i.checks) := by
  show f ∈ Statement.calledAll i.statements ↔ _
  rw [statements, Statement.calledAll_returnsTrue, Check.mem_calledAll]

/-- **A helper** calls nothing but the function that it is given. -/
theorem Script.Helper.called_definition {f : String} (h : Helper)
    (hf : f ∈ h.definition.called) : h.definition.callback?.map (·.name) = some f := by
  cases h with
  | isUnknownObject =>
    simp [Definition.called, definition, Statement.calledAll, Statement.called, Term.called] at hf
  | validateVector =>
    obtain rfl : f = "validate" := by
      simpa [Definition.called, definition, Statement.calledAll, Statement.called, Term.called,
        returnsTrue] using hf
    rfl

end InterfaceGuards
