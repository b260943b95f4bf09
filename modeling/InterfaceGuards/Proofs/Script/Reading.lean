/-
  Reading the output for a unit as a script.

  * `Check.statement`: the statement that a check is written as; `Check.same_code` says that its
    text is the text that is generated.
  * `Helper.definition`, `InterfaceScript.factoryDefinition`, `InterfaceScript.guardDefinition`: the
    functions that helpers, factories and guards are, with `Helper.same_code`,
    `InterfaceScript.same_factoryCode` and `InterfaceScript.same_guardCode`.
  * `Import.spelling`: the text of an import block.
  * `UnitScript.definitions`: the functions that a unit defines; `UnitScript.asRun`: the imports and
    the functions as they are written; `UnitScript.same_code`: that is what is generated.
  * `UnitScript.Returns`, `UnitScript.Creates`: what a guard of the unit returns for a value, and
    what a factory of the unit returns when it is called without arguments.
-/
import InterfaceGuards.Proofs.Script.Record
import InterfaceGuards.Unit.Script

namespace InterfaceGuards

namespace Script

/-! ## Checks -/

/-- The statement that a function ends with when all checks have passed. -/
def returnsTrue : Statement := .returns (.boolean true)

mutual

/-- The statement that a check is written as. -/
def Check.statement : Check → Statement
  | .isDate a => .refuse (.not (.group (.isDate a.term)))
  | .isObject a => .refuse (.not (.call "isUnknownObject" a.term))
  | .passesGuard type a => .refuse (.not (.call ("is" ++ type) a.term))
  | .everyElement a checks =>
    .refuse (.not (.callWith "validateVector" a.term "value"
      (Check.statements checks ++ [returnsTrue])))
  | .someAlternative alternatives => .refuseAll (Check.conditions alternatives)
  | .whenPresent a checks => .whenever (.differ a.term .undefined) (Check.statements checks)
  | .equals a x => .refuse (.not (.group (.equal a.term x.term)))
  | .isNull a => .refuse (.not (.group (.equal a.term .null)))
  | .hasKind a kind =>
    .refuse (.not (.group (.equal (.typeOf a.term) (.string (.single kind.name)))))

/-- The statements that several checks are written as. -/
def Check.statements : List Check → List Statement
  | [] => []
  | check :: checks => check.statement :: Check.statements checks

/-- The conditions that all alternatives fail. -/
def Check.conditions : List (List Check) → List Term
  | [] => []
  | checks :: rest =>
    .not (.immediate (Check.statements checks ++ [returnsTrue])) :: Check.conditions rest

end

theorem Check.statements_append (as bs : List Check) :
    Check.statements (as ++ bs) = Check.statements as ++ Check.statements bs := by
  induction as with
  | nil => rfl
  | cons a as ih => simp [Check.statements, ih]

theorem Statement.codeAll_append (ss ts : List Statement) :
    Statement.codeAll (ss ++ ts) = Statement.codeAll ss ++ Statement.codeAll ts := by
  induction ss with
  | nil => rfl
  | cons s ss ih => simp [Statement.codeAll, ih]

theorem same_returnTrue : Code.Same returnTrue (Statement.codeAll [returnsTrue]) := by
  intro indent k
  simp [returnTrue, returnsTrue, Statement.codeAll, Statement.code, Term.code, String.append_assoc]

theorem same_refuse {condition : String} {t : Term}
    (h : Code.Same [.raw condition] t.code) :
    Code.Same (refuseUnless condition) (Statement.refuse (.not t)).code := by
  intro indent k
  have := h indent k
  simp only [Code.shift_cons, Code.shift_nil, Code.text_cons, Code.text_nil, Code.Piece.shift,
    Code.Piece.text] at this
  simp [refuseUnless, Statement.code, Term.code, ← this, ← String.toList_inj]

/-- The name of a kind has nothing to be escaped. -/
theorem written_kind (kind : Primitive) :
    (Quoted.single kind.name).written = "'" ++ kind.name ++ "'" := by
  cases kind <;> decide

mutual

/-- **The text of a check is the text of its statement.** -/
theorem Check.same_code : ∀ check : Check, Code.Same check.code check.statement.code
  | .isDate a => same_refuse fun _ _ => by simp [Term.code, ← String.toList_inj]
  | .isObject a => same_refuse fun _ _ => by simp [Term.code, Helper.id, ← String.toList_inj]
  | .passesGuard type a => same_refuse fun _ _ => by
    simp [Term.code, guardName, ← String.toList_inj]
  | .everyElement a checks => by
    have body := ((Check.same_codeAll checks).append same_returnTrue).deeper
    intro indent k
    have := body indent k
    simp only [← Statement.codeAll_append] at this
    simp [Check.code, Check.statement, Statement.code, Term.code, Code.block, Helper.id, this,
      ← String.toList_inj]
  | .someAlternative alternatives => by
    have body := (Check.same_alternativesCode alternatives).deeper
    intro indent k
    have := body indent k
    simp [Check.code, Check.statement, Statement.code, Code.block, this]
  | .whenPresent a checks => by
    have body := (Check.same_codeAll checks).deeper
    intro indent k
    have := body indent k
    simp [Check.code, Check.statement, Statement.code, Term.code, Code.block, this,
      ← String.toList_inj]
  | .equals a value => same_refuse fun _ _ => by simp [Term.code, ← String.toList_inj]
  | .isNull a => same_refuse fun _ _ => by simp [Term.code, ← String.toList_inj]
  | .hasKind a kind => same_refuse fun _ _ => by
    simp [Term.code, written_kind, ← String.toList_inj]

/-- The text of several checks is the text of their statements. -/
theorem Check.same_codeAll : ∀ checks : List Check,
    Code.Same (Check.codeAll checks) (Statement.codeAll (Check.statements checks))
  | [] => .rfl
  | check :: checks => (Check.same_code check).append (Check.same_codeAll checks)

theorem Check.same_alternativesCode : ∀ alternatives : List (List Check),
    Code.Same (Check.alternativesCode alternatives)
      (Term.conditionsCode (Check.conditions alternatives))
  | [] => .rfl
  | checks :: rest => by
    have body := ((Check.same_codeAll checks).append same_returnTrue).deeper
    have more := Check.same_alternativesCode rest
    intro indent k
    have hb := body indent k
    have hm := more indent k
    have hr : (Check.conditions rest).isEmpty = rest.isEmpty := by cases rest <;> rfl
    simp only [← Statement.codeAll_append] at hb
    simp [Check.alternativesCode, Check.conditions, Term.conditionsCode, Term.code, Code.block,
      hb, hm, hr, ← String.toList_inj]

end

/-! ## Functions -/

theorem listed_eq_joinWith : ∀ names : List String, listed names = Text.joinWith ", " names
  | [] => rfl
  | [name] => by simp [listed, Text.joinWith, Text.intercalate]
  | name :: next :: names => by
    rw [listed, listed_eq_joinWith (next :: names), ← String.toList_inj]
    simp [Text.joinWith, Text.intercalate]

theorem bracketed_eq_angled (names : List String) : bracketed names = angled names := by
  cases names with
  | nil => rfl
  | cons name names => rw [bracketed, listed_eq_joinWith]; rfl

/-- The definition of a helper; the one that looks at elements takes a function to check them. -/
def Helper.definition : Helper → Definition
  | .isUnknownObject =>
    { exported := false
      name := "isUnknownObject"
      typeParams := []
      param := ⟨"value", "unknown", none⟩
      callback? := none
      returns := "value is Record<string,unknown>"
      body :=
        [.returns (.and (.equal (.typeOf (.variable "value")) (.string (.single "object")))
          (.differ (.variable "value") .null))] }
  | .validateVector =>
    { exported := false
      name := "validateVector"
      typeParams := ["T"]
      param := ⟨"value", "unknown", none⟩
      callback? := some ⟨"validate", "(val: unknown) => boolean", none⟩
      returns := "value is T[]"
      body :=
        [.refuse (.not (.isArray (.variable "value"))),
          .refuseEach "i" (.variable "value") (.not (.call "validate" (.variable "i"))),
          returnsTrue] }

/-- The text of a function is that of a definition if its first line and its body are. -/
theorem Definition.same_code {f : Function} {d : Definition} {body : Code}
    (hhead : Code.Same [.line 0 (f.signature ++ "\n")] d.head)
    (hbody : Code.Same body (Statement.codeAll d.body)) : Code.Same (f.code body) d.code :=
  (hhead.append hbody.deeper).append .rfl

/-- **The text of a helper is the text of its definition.** -/
theorem Helper.same_code (h : Helper) : Code.Same h.code h.definition.code := by
  refine Definition.same_code (fun indent k => ?_) (fun indent k => ?_)
  · cases h <;> simp [function, definition, Function.signature, Param.required, Param.text,
      Definition.head, Parameter.code, angled, bracketed, listed, Text.joinWith, Text.intercalate,
      ← String.toList_inj]
  · have hobject : (Quoted.single "object").written = "'object'" := by decide
    cases h <;> simp [body, definition, Statement.codeAll, Statement.code, Term.code, returnsTrue,
      hobject, ← String.toList_inj]

/-- The block that imports some names, one to a line, from a module. -/
def Import.spelling (i : Import) : Code :=
  .line 0 "import \x7b\n" :: i.names.map (fun name => .line 1 (name ++ ",\n")) ++
    [.line 0 ("\x7d from '" ++ i.source ++ "';\n")]

/-- **The text of the imports from a module is the text of their block.** -/
theorem Import.same_code (i : Import) : Code.Same i.code i.spelling := by
  intro indent k
  have hnames : (Code.shift k (Code.deeper (i.names.map fun name => .line 0 (name ++ ",\n")))) =
      Code.shift k (i.names.map fun name => .line 1 (name ++ ",\n")) := by
    simp [Code.deeper, Code.shift]
  simp only [code, spelling, Code.block, List.cons_append, Code.shift_cons, Code.shift_append, hnames]
  simp [← String.toList_inj]

end Script

open Script (Check Definition Expr Helper Import Statement Value)

namespace InterfaceScript

/-- The statements that the body of the guard is written as. -/
def statements (i : InterfaceScript) : List Statement :=
  Check.statements i.checks ++ [Script.returnsTrue]

/-- How the type of the interface is written. -/
def type (i : InterfaceScript) : String :=
  i.declaration.name ++ Script.bracketed i.declaration.typeParams

/-- The definition of the factory: without arguments it makes what it makes of no properties. -/
def factoryDefinition (i : InterfaceScript) : Definition where
  exported := true
  name := "create" ++ i.declaration.name
  typeParams := i.declaration.typeParams
  param := ⟨"params", "Partial<" ++ i.type ++ ">", some .emptyObject⟩
  callback? := none
  returns := i.type
  body := [.returns i.record.term]

/-- The definition of the guard. -/
def guardDefinition (i : InterfaceScript) : Definition where
  exported := true
  name := "is" ++ i.declaration.name
  typeParams := i.declaration.typeParams
  param := ⟨"value", "unknown", none⟩
  callback? := none
  returns := "value is " ++ i.type
  body := i.statements

theorem type_eq (i : InterfaceScript) : i.type = i.declaration.typeName := by
  rw [type, Script.bracketed_eq_angled]; rfl

/-- **The text of a factory is the text of its definition.** -/
theorem same_factoryCode (i : InterfaceScript) :
    Code.Same i.factoryCode i.factoryDefinition.code := by
  refine Definition.same_code (fun indent k => ?_) ?_
  · simp [factory, factoryDefinition, Script.Function.signature, Script.Param.text,
      Definition.head, Script.Parameter.code, Script.Term.code, type_eq,
      Script.bracketed_eq_angled, Script.factoryName, Text.joinWith, Text.intercalate,
      ← String.toList_inj]
  · simpa [factoryDefinition, Statement.codeAll, Statement.code] using
      (i.record.same_code.append .rfl).cons (.line 0 "return ")

/-- **The text of a guard is the text of its definition.** -/
theorem same_guardCode (i : InterfaceScript) : Code.Same i.guardCode i.guardDefinition.code := by
  refine Definition.same_code (fun indent k => ?_) ?_
  · simp [guard, guardDefinition, Script.Function.signature, Script.Param.required,
      Script.Param.text, Definition.head, Script.Parameter.code, type_eq,
      Script.bracketed_eq_angled, Script.guardName, Text.joinWith, Text.intercalate,
      ← String.toList_inj]
  · rw [guardDefinition, statements, Statement.codeAll_append]
    exact (Check.same_codeAll i.checks).append Script.same_returnTrue

end InterfaceScript

namespace UnitScript

/-- The functions that a unit defines: its helpers, then the factory and the guard of each
    interface. -/
def definitions (u : UnitScript) : List Definition :=
  u.helpers.map Helper.definition ++
    u.interfaces.flatMap fun i => [i.factoryDefinition, i.guardDefinition]

/-- The output for a unit: the imports, then the functions. -/
def asRun (u : UnitScript) : Code :=
  u.imports.flatMap Import.spelling ++ u.definitions.flatMap Definition.code

/-- **The text of a unit is read import by import and function by function.** -/
theorem same_code (u : UnitScript) : Code.Same u.code u.asRun := by
  rw [code, asRun, definitions, List.flatMap_append, ← List.append_assoc]
  refine (Code.Same.append ?_ ?_).append ?_
  · exact Code.Same.flatMap fun i _ => i.same_code
  · rw [List.flatMap_map]
    exact Code.Same.flatMap fun h _ => h.same_code
  · rw [List.flatMap_assoc]
    refine Code.Same.flatMap fun i _ => ?_
    simpa [InterfaceScript.code] using i.same_factoryCode.append i.same_guardCode

/-! ## Runs -/

/-- What the body of a guard gives for a value when at most `depth` functions may be active
    below it. -/
def runGuard (u : UnitScript) (i : InterfaceScript) (depth : Nat) (v : Value) :
    Script.Evaluation Value :=
  i.guardDefinition.apply (Script.callable u.definitions depth) v none

/-- A guard returns `w` for `v`, however many functions beyond some number may be active. -/
def Returns (u : UnitScript) (i : InterfaceScript) (v w : Value) : Prop :=
  ∃ enough, ∀ depth ≥ enough, u.runGuard i depth v = .ok w

/-- A factory that is called without arguments returns `w`, however many functions beyond some
    number may be active. -/
def Creates (u : UnitScript) (i : InterfaceScript) (w : Value) : Prop :=
  ∃ enough, ∀ depth ≥ enough,
    i.factoryDefinition.apply (Script.callable u.definitions depth) .undefined none = .ok w

variable {u : UnitScript} {i : InterfaceScript} {v w w' : Value}

/-- What evaluations from some number on give is one value. -/
theorem eq_of_eventually {run : Nat → Script.Evaluation Value}
    (h : ∃ enough, ∀ depth ≥ enough, run depth = .ok w)
    (h' : ∃ enough, ∀ depth ≥ enough, run depth = .ok w') : w = w' := by
  obtain ⟨m, hm⟩ := h
  obtain ⟨n, hn⟩ := h'
  have := (hm (max m n) (Nat.le_max_left ..)).symm.trans (hn (max m n) (Nat.le_max_right ..))
  exact Except.ok.inj this

theorem Returns.unique (h : u.Returns i v w) (h' : u.Returns i v w') : w = w' :=
  eq_of_eventually h h'

theorem Creates.unique (h : u.Creates i w) (h' : u.Creates i w') : w = w' :=
  eq_of_eventually h h'

end UnitScript

end InterfaceGuards
