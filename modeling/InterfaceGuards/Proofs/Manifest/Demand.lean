/-
  What is asked of a manifest, in the order in which it is asked.

  * `Demand`: a path is written, a name is proper, a name is fresh, a type can be read.
  * `Demand.fault?`: the error of a demand that is not met.
  * `Manifest.demands`: all that is asked: first of the form of every unit, then of every type.
  * `refusal?_toProject`: a manifest is refused with the error of the first demand that is not met.
-/
import InterfaceGuards.Manifest.Load
import InterfaceGuards.Proofs.Result

namespace InterfaceGuards

open Toml (Spanned)

/-- The error that a computation ends with. -/
def refusal? {ε α : Type} : Except ε α → Option ε
  | .ok _ => none
  | .error e => some e

theorem refusal?_eq_none {ε α : Type} {x : Except ε α} : refusal? x = none ↔ ∃ a, x = .ok a := by
  cases x <;> simp [refusal?]

theorem refusal?_eq_some {ε α : Type} {x : Except ε α} {e : ε} :
    refusal? x = some e ↔ x = .error e := by
  cases x <;> simp [refusal?]

namespace Manifest

/-- Something that is asked of a manifest. -/
inductive Demand where
  | written (path : Spanned String)
  | proper (place : Place) (kind : String) (name : Spanned String)
  | fresh (what : String) (before : List (Spanned String)) (name : Spanned String)
  | readable (scope : TypeExpr.Scope) (source : Spanned String)
deriving DecidableEq, Repr

/-- The error of a demand that is not met. -/
def Demand.fault? : Demand → Option ManifestError
  | .written path =>
    if Text.isBlank path.value then some (.invalid "unit path cannot be empty" (some path.span))
    else none
  | .proper place kind name => place.nameError? kind name
  | .fresh what before name => repetition? what before name
  | .readable scope source => refusal? (readType scope source)

/-! ## The order of the demands -/

/-- What is asked of several things one after the other, given those before. -/
def inTurn {α : Type} (ask : List α → α → List Demand) : (before : List α) → List α → List Demand
  | _, [] => []
  | before, x :: xs => ask before x ++ inTurn ask (before ++ [x]) xs

/-- What is asked of type parameters: each is proper, then fresh. -/
def paramDemands (place : Place) (params : List (Spanned String)) : List Demand :=
  inTurn (fun before param =>
    [.proper place "type parameter" param, .fresh "type parameter" before param]) [] params

/-- What is asked of members: each that has a name is fresh. -/
def memberDemands (members : List MemberEntry) : List Demand :=
  inTurn (fun before name => [.fresh "member" before name]) [] (members.filterMap MemberEntry.name)

/-- What is asked of a declaration, given those before it in its unit: its name is proper, then
    fresh, whatever kinds the others are of; then its type parameters, then its members. -/
def declarationDemands (unit : String) (before : List Declared) (d : Declared) : List Demand :=
  [.proper [unit] d.kind d.name, .fresh "declaration" (before.map Declared.name) d.name] ++
    paramDemands [unit, d.name.value] d.typeParams ++ memberDemands d.members

/-- What is asked of the form of a unit, given those before it: its path is written, then fresh;
    then its interfaces, its classes and its aliases. -/
def unitDemands (before : List UnitEntry) (u : UnitEntry) : List Demand :=
  [.written u.path, .fresh "unit" (before.map UnitEntry.path) u.path] ++
    inTurn (declarationDemands u.path.value) [] (declared u)

/-- The scope of the types in a declaration with the given type parameters. -/
def scopeOf (unit : Path) (params : List (Spanned String)) : TypeExpr.Scope :=
  ⟨params.map Spanned.value, some unit⟩

/-- What is asked of the types of a unit: each can be read in the scope of its declaration. -/
def typeDemands (baseDir : Path) (u : UnitEntry) : List Demand :=
  let unit := resolvePath baseDir ⟨u.path.value⟩
  let ofStructure (d : StructureEntry) := d.members.flatMap fun m =>
    m.type.toList.map (.readable (scopeOf unit d.typeParams))
  u.interfaces.flatMap ofStructure ++ u.classes.flatMap ofStructure ++
    u.aliases.flatMap fun d => [.readable (scopeOf unit d.typeParams) d.type]

/-- **All that is asked of a manifest**, in order: of the form of each unit, and only then of the
    types of each. -/
def demands (m : Manifest) (baseDir : Path) : List Demand :=
  inTurn unitDemands [] m.units ++ m.units.flatMap (typeDemands baseDir)

/-! ## Form -/

open Demand (fault?)

theorem inOrder_eq {α : Type} {wrong : List α → α → List ManifestError}
    {ask : List α → α → List Demand}
    (h : ∀ before x, wrong before x = (ask before x).filterMap fault?) (before xs : List α) :
    inOrder wrong before xs = (inTurn ask before xs).filterMap fault? := by
  induction xs generalizing before with
  | nil => rfl
  | cons x xs ih => rw [inOrder, inTurn, List.filterMap_append, h, ih]

theorem paramViolations_eq (place : Place) (params : List (Spanned String)) :
    paramViolations place params = (paramDemands place params).filterMap fault? := by
  refine inOrder_eq (fun before param => ?_) [] params
  cases hn : place.nameError? "type parameter" param <;>
    cases hr : repetition? "type parameter" before param <;> simp [fault?, hn, hr]

theorem memberViolations_eq (members : List MemberEntry) :
    memberViolations members = (memberDemands members).filterMap fault? := by
  refine inOrder_eq (fun before name => ?_) [] _
  cases hr : repetition? "member" before name <;> simp [fault?, hr]

theorem unitViolations_eq (u : UnitEntry) : unitViolations u =
    (inTurn (declarationDemands u.path.value) [] (declared u)).filterMap fault? := by
  refine inOrder_eq (fun before d => ?_) [] (declared u)
  rw [declarationDemands, List.filterMap_append, List.filterMap_append, paramViolations_eq,
    memberViolations_eq]
  cases hn : Place.nameError? [u.path.value] d.kind d.name <;>
    cases hr : repetition? "declaration" (before.map Declared.name) d.name <;>
    simp [fault?, hn, hr]

/-- What is wrong with the form of a manifest is what is not met of what is asked of it. -/
theorem violations_eq (m : Manifest) :
    m.violations = (inTurn unitDemands [] m.units).filterMap fault? := by
  refine inOrder_eq (fun before u => ?_) [] m.units
  rw [unitDemands, List.filterMap_append, unitViolations_eq]
  cases hr : repetition? "unit" (before.map UnitEntry.path) u.path <;>
    split_ifs with hblank <;> simp [fault?, hr, hblank]

/-! ## Types -/

section
variable {α β : Type}

/-- A computation after another one asks what this one asks behind what that one asks. -/
theorem refusal?_bind {x : Except ManifestError α} {f : α → Except ManifestError β}
    {cs ds : List Demand} (hx : refusal? x = cs.findSome? fault?)
    (hf : ∀ a, refusal? (f a) = ds.findSome? fault?) :
    refusal? (x >>= f) = (cs ++ ds).findSome? fault? := by
  rw [List.findSome?_append, ← hx]
  cases x with
  | error e => rfl
  | ok a => exact hf a

theorem refusal?_mapM {f : α → Except ManifestError β} {ask : α → List Demand}
    (h : ∀ x, refusal? (f x) = (ask x).findSome? fault?) (xs : List α) :
    refusal? (xs.mapM f) = (xs.flatMap ask).findSome? fault? := by
  induction xs with
  | nil => rfl
  | cons x xs ih =>
    rw [List.mapM_cons, List.flatMap_cons]
    refine refusal?_bind (h x) fun y => ?_
    rw [← List.append_nil (xs.flatMap ask)]
    exact refusal?_bind ih fun ys => rfl

end

theorem refusal?_readType (scope : TypeExpr.Scope) (source : Spanned String) :
    refusal? (readType scope source) = [Demand.readable scope source].findSome? fault? := by
  rw [List.findSome?_singleton]
  rfl

theorem refusal?_readMember (scope : TypeExpr.Scope) (m : MemberEntry) :
    refusal? (readMember scope m) =
      (m.type.toList.map (Demand.readable scope)).findSome? fault? := by
  rw [← List.append_nil (m.type.toList.map _)]
  refine refusal?_bind ?_ fun type => rfl
  cases m.type with
  | none => rfl
  | some source =>
    rw [← List.append_nil (List.map _ _)]
    exact refusal?_bind (refusal?_readType scope source) fun t => rfl

theorem refusal?_readStructure (unit : Path) (kind : DeclarationKind) (d : StructureEntry) :
    refusal? (readStructure unit kind d) = (d.members.flatMap fun m =>
      m.type.toList.map (Demand.readable (scopeOf unit d.typeParams))).findSome? fault? := by
  rw [← List.append_nil (d.members.flatMap _)]
  exact refusal?_bind (refusal?_mapM (refusal?_readMember _) d.members) fun ms => rfl

theorem refusal?_readAlias (unit : Path) (d : AliasEntry) : refusal? (readAlias unit d) =
    [Demand.readable (scopeOf unit d.typeParams) d.type].findSome? fault? := by
  rw [← List.append_nil [_]]
  exact refusal?_bind (refusal?_readType _ d.type) fun t => rfl

theorem refusal?_readUnit (baseDir : Path) (u : UnitEntry) :
    refusal? (readUnit baseDir u) = (typeDemands baseDir u).findSome? fault? := by
  rw [typeDemands, List.append_assoc, ← List.append_nil (u.aliases.flatMap _)]
  refine refusal?_bind (refusal?_mapM (refusal?_readStructure _ _) _) fun is => ?_
  refine refusal?_bind (refusal?_mapM (refusal?_readStructure _ _) _) fun cs => ?_
  exact refusal?_bind (refusal?_mapM (refusal?_readAlias _) _) fun as => rfl

/-- **A manifest is refused with the error of the first demand that is not met.** -/
theorem refusal?_toProject (m : Manifest) (baseDir : Path) :
    refusal? (m.toProject baseDir) = (m.demands baseDir).findSome? fault? := by
  rw [demands, List.findSome?_append, ← List.head?_filterMap, ← violations_eq, toProject]
  cases m.violations with
  | cons e es => rfl
  | nil =>
    rw [← refusal?_mapM (refusal?_readUnit baseDir) m.units]
    cases m.units.mapM (readUnit baseDir) <;> rfl

end Manifest

end InterfaceGuards
