/-
  Statements of generated scripts: how they are written and what they do.

  * `Term`, `Statement`: the expressions and statements that bodies of functions are made of.
  * `Term.code`, `Statement.code`: their text.
  * `Term.eval`, `Statement.run`: what they do in an environment; a statement may end the function
    it stands in, and both may fail.
  * `Definition`: a function definition, with its text and what a call of it does; `callable` is
    what the functions of a script do, of which only so many may be active at once.
-/
import InterfaceGuards.Code.Piece
import InterfaceGuards.Proofs.Script.Leaf
import InterfaceGuards.Proofs.Script.Value

namespace InterfaceGuards.Script

/-! ## Syntax -/

mutual

/-- An expression.  An object ends with the entries of another one if it spreads a variable. -/
inductive Term where
  | variable (name : String)
  | string (literal : Quoted)
  | number (numeral : Numeral)
  | bigint (n : Nat)
  | boolean (b : Bool)
  | undefined
  | null
  | newDate
  | emptyArray
  | emptyObject
  | emptyFunction
  | object (entries : List (Quoted × Term)) (spread : Option String)
  | frozen (t : Term)
  | sealed (t : Term)
  | cast (t : Term) (type : String)
  | property (t : Term) (key : Quoted)
  | group (t : Term)
  | typeOf (t : Term)
  | isDate (t : Term)
  | isArray (t : Term)
  | equal (t u : Term)
  | differ (t u : Term)
  | not (t : Term)
  | and (t u : Term)
  | call (function : String) (argument : Term)
  | callWith (function : String) (argument : Term) (param : String) (body : List Statement)
  | immediate (body : List Statement)

/-- A statement.  The first three forms with a condition return `false` when the condition holds
    (for one element of an array, for the last of them). -/
inductive Statement where
  | refuse (condition : Term)
  | refuseAll (conditions : List Term)
  | refuseEach (name : String) (array condition : Term)
  | whenever (condition : Term) (body : List Statement)
  | returns (t : Term)

end

/-- The last line of an object, for the entries of the variable that it spreads. -/
def spreadLine : Option String → Code
  | some name => [.line 0 ("..." ++ name ++ "\n")]
  | none => []

mutual

/-- The code of an expression; it goes on where it stands. -/
def Term.code : Term → Code
  | .variable name => [.raw name]
  | .string literal => [.raw literal.written]
  | .number numeral => [.raw numeral.written]
  | .bigint n => [.raw ("BigInt(" ++ Nat.repr n ++ ")")]
  | .boolean b => [.raw (if b then "true" else "false")]
  | .undefined => [.raw "undefined"]
  | .null => [.raw "null"]
  | .newDate => [.raw "new Date(0)"]
  | .emptyArray => [.raw "[]"]
  | .emptyObject => [.raw "\x7b\x7d"]
  | .emptyFunction => [.raw "() => \x7b\x7d"]
  | .object entries spread =>
    .raw "\x7b\n" :: Code.deeper (Term.entriesCode spread.isNone entries ++ spreadLine spread) ++
      [.line 0 "\x7d"]
  | .frozen t => .raw "Object.freeze(" :: t.code ++ [.raw ")"]
  | .sealed t => .raw "Object.seal(" :: t.code ++ [.raw ")"]
  | .cast t type => t.code ++ [.raw (" as " ++ type)]
  | .property t key => t.code ++ [.raw ("[" ++ key.written ++ "]")]
  | .group t => .raw "(" :: t.code ++ [.raw ")"]
  | .typeOf t => .raw "typeof " :: t.code
  | .isDate t => t.code ++ [.raw " instanceof Date"]
  | .isArray t => .raw "Array.isArray(" :: t.code ++ [.raw ")"]
  | .equal t u => t.code ++ .raw " === " :: u.code
  | .differ t u => t.code ++ .raw " !== " :: u.code
  | .not t => .raw "!" :: t.code
  | .and t u => t.code ++ .raw " && " :: u.code
  | .call function t => .raw (function ++ "(") :: t.code ++ [.raw ")"]
  | .callWith function t param body =>
    .raw (function ++ "(") :: t.code ++ .raw (", " ++ param ++ " => \x7b\n") ::
      Code.deeper (Statement.codeAll body) ++ [.line 0 "\x7d)"]
  | .immediate body =>
    .raw "(() => \x7b\n" :: Code.deeper (Statement.codeAll body) ++ [.line 0 "\x7d)()"]

/-- The code of a statement. -/
def Statement.code : Statement → Code
  | .refuse condition => .line 0 "if(" :: condition.code ++ [.raw ") return false;\n"]
  | .refuseAll conditions =>
    .line 0 "if(\n" :: Code.deeper (Term.conditionsCode conditions) ++
      [.line 0 ") return false;\n"]
  | .refuseEach name array condition =>
    .line 0 ("for(const " ++ name ++ " of ") :: array.code ++ .raw ") if(" :: condition.code ++
      [.raw ") return false;\n"]
  | .whenever condition body =>
    .line 0 "if(" :: condition.code ++ .raw ") \x7b\n" :: Code.deeper (Statement.codeAll body) ++
      [.line 0 "\x7d\n"]
  | .returns t => .line 0 "return " :: t.code ++ [.raw ";\n"]

/-- The code of several statements. -/
def Statement.codeAll : List Statement → Code
  | [] => []
  | s :: ss => s.code ++ Statement.codeAll ss

/-- The code of several conditions, one to a line, all of which have to hold. -/
def Term.conditionsCode : List Term → Code
  | [] => []
  | t :: ts =>
    .line 0 "" :: t.code ++ .raw (if ts.isEmpty then "\n" else " &&\n") :: Term.conditionsCode ts

/-- The code of an object's entries, one to a line, after which the object ends or does not. -/
def Term.entriesCode (atEnd : Bool) : List (Quoted × Term) → Code
  | [] => []
  | (key, t) :: rest =>
    .line 0 (key.written ++ ": ") :: t.code ++
      .raw (if atEnd && rest.isEmpty then "\n" else ",\n") :: Term.entriesCode atEnd rest

end

/-! ## Meaning -/

/-- Why an evaluation gives no value: it throws an error, or too many functions are active. -/
inductive Failure where
  | thrown
  | unfinished
deriving DecidableEq, Repr

/-- A value or the failure to give one. -/
abbrev Evaluation := Except Failure

/-- What a function does with its first argument and with the function that may follow it. -/
abbrev Callable := Value → Option (Value → Evaluation Value) → Evaluation Value

/-- What the names of variables and functions stand for. -/
structure Environment where
  values : String → Option Value
  functions : String → Option Callable

namespace Environment

/-- The environment with a variable set. -/
def bind (env : Environment) (name : String) (v : Value) : Environment :=
  { env with values := fun n => if n = name then some v else env.values n }

/-- The value of a variable. -/
def lookup (env : Environment) (name : String) : Evaluation Value :=
  match env.values name with
  | none => .error .thrown
  | some v => .ok v

/-- The properties that an object gets from the variable that it spreads. -/
def spread (env : Environment) : Option String → Evaluation (List (String × Value))
  | none => .ok []
  | some name => do
    let v ← env.lookup name
    match v.spread? with
    | none => .error .thrown
    | some properties => .ok properties

/-- A call of a function by name. -/
def call (env : Environment) (function : String) : Callable := fun v callback =>
  match env.functions function with
  | none => .error .thrown
  | some f => f v callback

end Environment

/-- What a property read gives. -/
def Value.get (v : Value) (name : String) : Evaluation Value :=
  match v.property? name with
  | none => .error .thrown
  | some w => .ok w

/-- Whether some element passes a test, the elements being tested in order until one does. -/
def anyElement (test : Value → Evaluation Value) : List Value → Evaluation Bool
  | [] => .ok false
  | v :: vs => do
    let answer ← test v
    if answer.isTruthy then .ok true else anyElement test vs

/-- What a function body gives: what it returns, or nothing when it comes to its end. -/
def returned (ending : Evaluation (Option Value)) : Evaluation Value :=
  ending.map (·.getD .undefined)

/-- What a statement that refuses under a condition does. -/
def refuseIf (condition : Bool) : Option Value := if condition then some (.boolean false) else none

mutual

/-- The value of an expression.  Freezing, sealing and casting an object give the object; of two
    entries with one name the later one counts, and what is spread comes last. -/
def Term.eval (env : Environment) : Term → Evaluation Value
  | .variable name => env.lookup name
  | .string literal => .ok (.string literal.text)
  | .number numeral => .ok (.number numeral.value)
  | .bigint n => .ok (.bigint n)
  | .boolean b => .ok (.boolean b)
  | .undefined => .ok .undefined
  | .null => .ok .null
  | .newDate => .ok (.date [])
  | .emptyArray => .ok (.array [] [])
  | .emptyObject => .ok (.object [])
  | .emptyFunction => .ok (.function [])
  | .object entries spread => do
    let own ← Term.evalEntries env entries
    let more ← env.spread spread
    .ok (.object (more ++ own.reverse))
  | .frozen t | .sealed t | .cast t _ | .group t => t.eval env
  | .property t key => do
    let v ← t.eval env
    v.get key.text
  | .typeOf t => do
    let v ← t.eval env
    .ok (.string v.typeOf)
  | .isDate t => do
    let v ← t.eval env
    .ok (.boolean v.isDate)
  | .isArray t => do
    let v ← t.eval env
    .ok (.boolean v.elements?.isSome)
  | .equal t u => do
    let v ← t.eval env
    let w ← u.eval env
    .ok (.boolean (v.same w))
  | .differ t u => do
    let v ← t.eval env
    let w ← u.eval env
    .ok (.boolean !(v.same w))
  | .not t => do
    let v ← t.eval env
    .ok (.boolean !v.isTruthy)
  | .and t u => do
    let v ← t.eval env
    if v.isTruthy then u.eval env else .ok v
  | .call function t => do
    let v ← t.eval env
    env.call function v none
  | .callWith function t param body => do
    let v ← t.eval env
    env.call function v (some fun w => returned (Statement.runAll (env.bind param w) body))
  | .immediate body => returned (Statement.runAll env body)

/-- What a statement does: the value it returns from the function it stands in, or nothing when
    the statement after it comes next. -/
def Statement.run (env : Environment) : Statement → Evaluation (Option Value)
  | .refuse condition => do
    let v ← condition.eval env
    .ok (refuseIf v.isTruthy)
  | .refuseAll conditions => do
    let holds ← Term.allHold env conditions
    .ok (refuseIf holds)
  | .refuseEach name array condition => do
    let v ← array.eval env
    match v.elements? with
    | none => .error .thrown
    | some vs => do
      let holds ← anyElement (fun w => condition.eval (env.bind name w)) vs
      .ok (refuseIf holds)
  | .whenever condition body => do
    let v ← condition.eval env
    if v.isTruthy then Statement.runAll env body else .ok none
  | .returns t => do
    let v ← t.eval env
    .ok (some v)

/-- What several statements do one after the other. -/
def Statement.runAll (env : Environment) : List Statement → Evaluation (Option Value)
  | [] => .ok none
  | s :: ss => do
    match ← s.run env with
    | some v => .ok (some v)
    | none => Statement.runAll env ss

/-- Whether all conditions hold, tried in order until one does not. -/
def Term.allHold (env : Environment) : List Term → Evaluation Bool
  | [] => .ok true
  | t :: ts => do
    let v ← t.eval env
    if v.isTruthy then Term.allHold env ts else .ok false

/-- The properties that the entries of an object define, in order. -/
def Term.evalEntries (env : Environment) :
    List (Quoted × Term) → Evaluation (List (String × Value))
  | [] => .ok []
  | (key, t) :: rest => do
    let v ← t.eval env
    let more ← Term.evalEntries env rest
    .ok ((key.text, v) :: more)

end

/-! ## Statements in sequence -/

variable {env : Environment}

theorem Statement.runAll_append (env : Environment) (ss ts : List Statement) :
    Statement.runAll env (ss ++ ts) = (do
      match ← Statement.runAll env ss with
      | some v => .ok (some v)
      | none => Statement.runAll env ts) := by
  induction ss with
  | nil => rw [Statement.runAll]; rfl
  | cons s ss ih =>
    rw [List.cons_append, Statement.runAll, Statement.runAll, ih]
    cases s.run env with
    | error e => rfl
    | ok r => cases r <;> rfl

theorem Statement.runAll_singleton (env : Environment) (s : Statement) :
    Statement.runAll env [s] = s.run env := by
  rw [Statement.runAll]
  cases s.run env with
  | error e => rfl
  | ok r => cases r <;> rfl

theorem runAll_refuse {t : Term} {b : Bool} {ss : List Statement}
    (h : t.eval env = .ok (.boolean b)) :
    Statement.runAll env (.refuse t :: ss) =
      if b then .ok (some (.boolean false)) else Statement.runAll env ss := by
  rw [Statement.runAll, Statement.run, h]
  cases b <;> rfl

/-! ## Functions -/

/-- A parameter of a function: its name, the type it is declared with, and the expression for its
    value when none is given. -/
structure Parameter where
  name : String
  type : String
  value? : Option Term

/-- A function definition: its first parameter, the second one if it takes a function, and its
    body. -/
structure Definition where
  exported : Bool
  name : String
  typeParams : List String
  param : Parameter
  callback? : Option Parameter
  returns : String
  body : List Statement

namespace Parameter

/-- The code of a parameter. -/
def code (p : Parameter) : Code :=
  .raw (p.name ++ ": " ++ p.type) ::
    match p.value? with
    | some t => .raw " = " :: t.code
    | none => []

/-- The value of a parameter for which a value is given, or is not. -/
def argument (p : Parameter) (functions : String → Option Callable) (v : Value) :
    Evaluation Value :=
  match p.value? with
  | none => .ok v
  | some t =>
    match v with
    | .undefined => t.eval ⟨fun _ => none, functions⟩
    | v => .ok v

end Parameter

/-- Names with commas between them. -/
def listed : List String → String
  | [] => ""
  | [name] => name
  | name :: next :: names => name ++ ", " ++ listed (next :: names)

/-- Type parameters between angle brackets, if there are any. -/
def bracketed : List String → String
  | [] => ""
  | name :: names => "<" ++ listed (name :: names) ++ ">"

namespace Definition

/-- The line that stands before the body. -/
def head (d : Definition) : Code :=
  .line 0 ((if d.exported then "export " else "") ++ "function " ++ d.name ++
      bracketed d.typeParams ++ "(") :: d.param.code ++
    (match d.callback? with
      | some p => .raw ", " :: p.code
      | none => []) ++
    [.raw ("): " ++ d.returns ++ " \x7b\n")]

/-- The code of a function definition. -/
def code (d : Definition) : Code :=
  d.head ++ Code.deeper (Statement.codeAll d.body) ++ [.line 0 "\x7d\n"]

/-- The environment in which the body of a function runs. -/
def environment (d : Definition) (functions : String → Option Callable) (v : Value)
    (callback : Option (Value → Evaluation Value)) : Environment where
  values name := if name = d.param.name then some v else none
  functions name :=
    if d.callback?.map (·.name) = some name then callback.map fun f w _ => f w
    else functions name

/-- What a function does; it is called without arguments by calling it with `undefined`. -/
def apply (d : Definition) (functions : String → Option Callable) : Callable :=
  fun v callback => do
    let w ← d.param.argument functions v
    returned (Statement.runAll (d.environment functions w callback) d.body)

end Definition

/-- What the functions of a script do when at most `depth` of them may be active at once.  Of two
    functions of one name the first counts. -/
def callable (ds : List Definition) : (depth : Nat) → String → Option Callable
  | 0, name => (ds.find? (·.name = name)).map fun _ _ _ => .error .unfinished
  | depth + 1, name => (ds.find? (·.name = name)).map (·.apply (callable ds depth))

end InterfaceGuards.Script
