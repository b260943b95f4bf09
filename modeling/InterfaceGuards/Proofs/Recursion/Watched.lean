/-
  Watching the references that are met while code is made.

  * `Meeting`: a reference to a declaration, what was being expanded when it was met, and what was
    made of it.
  * `Watched α`: the making of an `α`, with the references met on the way.
  * `Watched.checksWith`, `Watched.defaultWith`, …: the syntheses of checks and defaults, watched.
  * `Catalog.met`: the references met while the factories and guards of a unit are made.
  * `made_interfaceScript`: watching changes nothing.

  The watched syntheses decide by names, as the others do, and only note which sites the names stand
  for.
-/
import InterfaceGuards.Proofs.Recursion.Sited
import InterfaceGuards.Unit.Build

namespace InterfaceGuards

open Script (Accessor Check Expr)

/-- What code is made for. -/
inductive Purpose where
  | factory
  | guard
deriving DecidableEq, Repr

/-- What a reference means: a class or interface, of which those called `Date` are taken for the
    built-in class, or the alias of an object. -/
inductive Referent where
  | date
  | classLike
  | named
deriving DecidableEq, Repr

/-- What is made of a reference: code for the declaration that it means, a call of a guard, or the
    error that the declaration refers to itself. -/
inductive Response where
  | inlined
  | called
  | refused
deriving DecidableEq, Repr

/-- A reference that is met: the site that it leads to, the sites being expanded, the latest first,
    and what is made of it. -/
structure Meeting where
  purpose : Purpose
  referent : Referent
  site : Site
  expanding : List Site
  response : Response
deriving DecidableEq, Repr

/-- A scope with the sites of the names being expanded. -/
structure Spot where
  scope : Scope
  sites : List Site
deriving Repr

namespace Spot

/-- The spot at which work on a unit starts. -/
def start (c : Catalog) (u : SourceUnit) : Spot := ⟨.start c u, []⟩

/-- The spot inside the members of a declaration. -/
def expand (s : Spot) (site : Site) : Spot := ⟨s.scope.expand site.name, site :: s.sites⟩

/-- The spot inside a member. -/
def within (s : Spot) (segment : String) : Spot := ⟨s.scope.within segment, s.sites⟩

end Spot

/-- The making of something, with the references met on the way. -/
structure Watched (α : Type) where
  met : List Meeting
  made : Synthesis α

namespace Watched

variable {α β : Type}

/-- A synthesis that meets no reference. -/
def unmet (x : Synthesis α) : Watched α := ⟨[], x⟩

/-- One after another: nothing more is met after an error. -/
protected def bind (x : Watched α) (f : α → Watched β) : Watched β where
  met :=
    match x.made.outcome with
    | .value a => x.met ++ (f a).met
    | _ => x.met
  made := x.made >>= fun a => (f a).made

instance : Monad Watched where
  pure a := unmet (pure a)
  bind := Watched.bind

/-- The result, an error included. -/
def attempt (x : Watched α) : Watched (Except SynthesisError α) := ⟨x.met, x.made.attempt⟩

/-- A reference that is met at a spot, and what is made of it. -/
def meet (s : Spot) (purpose : Purpose) (referent : Referent) (site : Site) (response : Response)
    (x : Watched α) : Watched α :=
  ⟨⟨purpose, referent, site, s.sites, response⟩ :: x.met, x.made⟩

/-! ## Checks -/

section
variable (inner : Spot → Accessor → TypeExpr → Watched (List Check))

/-- The checks of a member, `inner` making those of its type. -/
def memberChecks (s : Spot) (a : Accessor) (m : Member) : Watched (List Check) :=
  match m.property? with
  | .error e => do
    unmet (Synthesis.warn ((s.scope.within m.displayName).skipped "validator" e))
    pure []
  | .ok (name, type) => do
    let checks ← inner (s.within name) (a.property name) type
    pure (if m.optional then [.whenPresent (a.property name) checks] else checks)

/-- The checks of several members, in order. -/
def membersChecks (s : Spot) (a : Accessor) : List Member → Watched (List Check)
  | [] => pure []
  | m :: ms => do
    let checks ← memberChecks inner s a m
    let more ← membersChecks s a ms
    pure (checks ++ more)

/-- The checks that a value is an object with the given members. -/
def objectChecksWith (s : Spot) (a : Accessor) (members : List Member) : Watched (List Check) := do
  unmet (Synthesis.require .isUnknownObject)
  let checks ← membersChecks inner s a members
  pure (.isObject a :: checks)

mutual

/-- The checks of a description, `inner` making those of its members. -/
def checksWith (s : Spot) (a : Accessor) : Sited → Watched (List Check)
  | .classLike site members =>
    if site.name = Description.dateName then meet s .guard .date site .inlined (pure [.isDate a])
    else if s.scope.isExpanding site.name then
      if s.scope.generates site.name then
        meet s .guard .classLike site .called (pure [.passesGuard site.name a])
      else meet s .guard .classLike site .refused (unmet (.fail (.recursive site.name)))
    else meet s .guard .classLike site .inlined (objectChecksWith inner (s.expand site) a members)
  | .named site members =>
    if s.scope.isExpanding site.name then
      meet s .guard .named site .refused (unmet (.fail (.recursive site.name)))
    else meet s .guard .named site .inlined (objectChecksWith inner (s.expand site) a members)
  | .date => pure [.isDate a]
  | .object members => objectChecksWith inner s a members
  | .array element => do
    unmet (Synthesis.require .validateVector)
    let checks ← checksWith s .value element
    pure [.everyElement a checks]
  | .union alternatives =>
    if alternatives.isEmpty then unmet (.fail (.unsupported "empty union"))
    else do
      let checks ← checksOfAll s a alternatives
      pure [.someAlternative checks]
  | .literal value => pure [.equals a value]
  | .primitive kind => pure (if kind = .null then [.isNull a] else [.hasKind a kind])
  | .reference _ => pure []
  | .unsupported kind => unmet (.fail (.unsupported kind))

/-- The checks of several descriptions, each by itself. -/
def checksOfAll (s : Spot) (a : Accessor) : List Sited → Watched (List (List Check))
  | [] => pure []
  | d :: ds => do
    let checks ← checksWith s a d
    let more ← checksOfAll s a ds
    pure (checks :: more)

end

end

/-- The checks of a declared type, made within `bound` members. -/
def checksOfType : (bound : Nat) → Spot → Accessor → TypeExpr → Watched (List Check)
  | 0, _, _, _ => unmet .endless
  | bound + 1, s, a, type => do
    let d ← unmet (.ofDescribed (s.scope.catalog.sited type))
    checksWith (checksOfType bound) s a d

/-! ## Defaults -/

section
variable (inner : Spot → TypeExpr → Watched Expr)

/-- The entry of a member, `inner` making the default of its type. -/
def entryOf (s : Spot) (m : Member) : Watched (Option (String × Expr)) :=
  match m.property? with
  | .error e => do
    unmet (Synthesis.warn ((s.scope.within m.displayName).skipped "default" e))
    pure none
  | .ok (name, type) => do
    match ← attempt (inner (s.within name) type) with
    | .ok value => pure (some (name, value))
    | .error e =>
      if m.optional then pure (some (name, .undefined))
      else do
        unmet (Synthesis.warn ((s.scope.within name).skipped "default" e))
        pure none

/-- The entries of several members, in order. -/
def entriesOf (s : Spot) : List Member → Watched (List (String × Expr))
  | [] => pure []
  | m :: ms => do
    let entry ← entryOf inner s m
    let entries ← entriesOf s ms
    pure (entry.toList ++ entries)

/-- The record of several members. -/
def recordWith (s : Spot) (members : List Member) (spread cast : Option String) : Watched Expr := do
  let entries ← entriesOf inner s members
  pure (.record entries spread cast)

mutual

/-- The default value of a description, `inner` making the defaults of its members. -/
def defaultWith (s : Spot) : Sited → Watched Expr
  | .classLike site members =>
    if site.name = Description.dateName then meet s .factory .date site .inlined (pure .newDate)
    else if s.scope.isExpanding site.name then
      meet s .factory .classLike site .refused (unmet (.fail (.recursive site.name)))
    else if members.isEmpty then
      meet s .factory .classLike site .inlined (unmet (.fail (.emptyStructure site.name)))
    else
      meet s .factory .classLike site .inlined (recordWith inner (s.expand site) members none none)
  | .named site members =>
    if s.scope.isExpanding site.name then
      meet s .factory .named site .refused (unmet (.fail (.recursive site.name)))
    else meet s .factory .named site .inlined (recordWith inner (s.expand site) members none none)
  | .date => pure .newDate
  | .object members => recordWith inner s members none none
  | .union alternatives => defaultOfFirst s alternatives
  | .array _ => pure .emptyArray
  | .literal value => pure (.literal value)
  | .primitive kind => pure (.zero kind)
  | .reference name => unmet (.fail (.noDefault name))
  | .unsupported kind => unmet (.fail (.unsupported kind))

/-- The default value of the first of several alternatives. -/
def defaultOfFirst (s : Spot) : List Sited → Watched Expr
  | [] => unmet (.fail (.unsupported "empty union"))
  | d :: _ => defaultWith s d

end

end

/-- The default value of a declared type, made within `bound` members. -/
def defaultOfType : (bound : Nat) → Spot → TypeExpr → Watched Expr
  | 0, _, _ => unmet .endless
  | bound + 1, s, type => do
    let d ← unmet (.ofDescribed (s.scope.catalog.sited type))
    defaultWith (defaultOfType bound) s d

/-! ## Units -/

/-- The factory and the guard of an interface of the unit at a place. -/
def interfaceScript (s : Spot) (unit : Nat) (d : Declaration) : Watched InterfaceScript := do
  let inside := (s.within d.name).expand ⟨unit, d.name⟩
  let bound := s.scope.catalog.expansionBound (TypeExpr.sizeOfMembers d.members)
  let record ← recordWith (defaultOfType bound) inside d.members (some "params") (some d.typeName)
  let checks ← objectChecksWith (checksOfType bound) inside .value d.members
  pure ⟨d, record, checks⟩

/-- The references met for several interfaces, up to the first for which nothing can be made. -/
def metFor (s : Spot) (unit : Nat) : List Declaration → List Meeting
  | [] => []
  | d :: ds =>
    let x := interfaceScript s unit d
    x.met ++
      match x.made.outcome with
      | .value _ => metFor s unit ds
      | _ => []

end Watched

/-- The references met while the factories and guards of the unit at a place are made. -/
def Catalog.met (c : Catalog) (unit : Nat) : List Meeting :=
  match c.units[unit]? with
  | none => []
  | some u => Watched.metFor (.start c u) unit u.interfaces

namespace Watched

/-! ## What is made -/

section
variable {inner : Spot → Accessor → TypeExpr → Watched (List Check)}
  {plain : Scope → Accessor → TypeExpr → Synthesis (List Check)}
  (h : ∀ s a t, (inner s a t).made = plain s.scope a t)
include h

theorem made_memberChecks (s : Spot) (a : Accessor) (m : Member) :
    (memberChecks inner s a m).made = Synthesis.memberChecks plain s.scope a m := by
  unfold memberChecks Synthesis.memberChecks
  cases m.property? with
  | error e => rfl
  | ok p =>
    show (inner (s.within p.1) (a.property p.1) p.2).made >>= _ = _
    rw [h]
    rfl

theorem made_membersChecks (s : Spot) (a : Accessor) : ∀ ms : List Member,
    (membersChecks inner s a ms).made = Synthesis.membersChecks plain s.scope a ms
  | [] => rfl
  | m :: ms => by
    rw [Synthesis.membersChecks, ← made_memberChecks h, ← made_membersChecks s a ms]
    rfl

theorem made_objectChecksWith (s : Spot) (a : Accessor) (ms : List Member) :
    (objectChecksWith inner s a ms).made = Synthesis.objectChecksWith plain s.scope a ms := by
  rw [Synthesis.objectChecksWith, ← made_membersChecks h]
  rfl

end

section
variable {inner : Spot → Accessor → TypeExpr → Watched (List Check)}
  {plain : Scope → Accessor → TypeExpr → Synthesis (List Check)}

mutual

theorem made_checksWith (h : ∀ s a t, (inner s a t).made = plain s.scope a t)
    (s : Spot) (a : Accessor) : ∀ d : Sited,
    (checksWith inner s a d).made = Synthesis.checksWith plain s.scope a d.erase
  | .classLike site ms => by
    rw [checksWith, Sited.erase, Synthesis.checksWith]
    split_ifs
    · rfl
    · rfl
    · rfl
    · exact made_objectChecksWith h (s.expand site) a ms
  | .named site ms => by
    rw [checksWith, Sited.erase, Synthesis.checksWith]
    split_ifs
    · rfl
    · rw [Synthesis.checksWith]
      exact made_objectChecksWith h (s.expand site) a ms
  | .date => by
    rw [checksWith, Sited.erase, Description.date, Synthesis.checksWith, if_pos rfl]
    rfl
  | .object ms => by
    rw [checksWith, Sited.erase, Synthesis.checksWith]
    exact made_objectChecksWith h s a ms
  | .array element => by
    rw [checksWith, Sited.erase, Synthesis.checksWith, ← made_checksWith h s .value element]
    rfl
  | .union ds => by
    rw [checksWith, Sited.erase, Synthesis.checksWith, ← made_checksOfAll h s a ds]
    cases ds <;> rfl
  | .literal value => by
    rw [checksWith, Sited.erase, Synthesis.checksWith]
    rfl
  | .primitive kind => by
    rw [checksWith, Sited.erase, Synthesis.checksWith]
    rfl
  | .reference name => by
    rw [checksWith, Sited.erase, Synthesis.checksWith]
    rfl
  | .unsupported kind => by
    rw [checksWith, Sited.erase, Synthesis.checksWith]
    rfl

theorem made_checksOfAll (h : ∀ s a t, (inner s a t).made = plain s.scope a t)
    (s : Spot) (a : Accessor) : ∀ ds : List Sited,
    (checksOfAll inner s a ds).made = Synthesis.checksOfAll plain s.scope a (Sited.eraseAll ds)
  | [] => by
    rw [checksOfAll, Sited.eraseAll, Synthesis.checksOfAll]
    rfl
  | d :: ds => by
    rw [checksOfAll, Sited.eraseAll, Synthesis.checksOfAll, ← made_checksWith h s a d,
      ← made_checksOfAll h s a ds]
    rfl

end

end

section
variable {inner : Spot → TypeExpr → Watched Expr} {plain : Scope → TypeExpr → Synthesis Expr}
  (h : ∀ s t, (inner s t).made = plain s.scope t)
include h

theorem made_entryOf (s : Spot) (m : Member) :
    (entryOf inner s m).made = Synthesis.entryOf plain s.scope m := by
  unfold entryOf Synthesis.entryOf
  cases m.property? with
  | error e => rfl
  | ok p =>
    obtain ⟨name, t⟩ := p
    show (attempt (inner (s.within name) t)).made >>= _ = Synthesis.attempt (plain _ t) >>= _
    rw [attempt, h]
    refine congrArg _ (funext fun r => ?_)
    cases r with
    | ok e => rfl
    | error e => dsimp only; split_ifs <;> rfl

theorem made_entriesOf (s : Spot) : ∀ ms : List Member,
    (entriesOf inner s ms).made = Synthesis.entriesOf plain s.scope ms
  | [] => rfl
  | m :: ms => by
    rw [Synthesis.entriesOf, ← made_entryOf h, ← made_entriesOf s ms]
    rfl

theorem made_recordWith (s : Spot) (ms : List Member) (spread cast : Option String) :
    (recordWith inner s ms spread cast).made =
      Synthesis.recordWith plain s.scope ms spread cast := by
  rw [Synthesis.recordWith, ← made_entriesOf h]
  rfl

end

section
variable {inner : Spot → TypeExpr → Watched Expr} {plain : Scope → TypeExpr → Synthesis Expr}

mutual

theorem made_defaultWith (h : ∀ s t, (inner s t).made = plain s.scope t) (s : Spot) : ∀ d : Sited,
    (defaultWith inner s d).made = Synthesis.defaultWith plain s.scope d.erase
  | .classLike site ms => by
    rw [defaultWith, Sited.erase, Synthesis.defaultWith]
    split_ifs
    · rfl
    · rfl
    · rfl
    · exact made_recordWith h (s.expand site) ms none none
  | .named site ms => by
    rw [defaultWith, Sited.erase, Synthesis.defaultWith]
    split_ifs
    · rfl
    · rw [Synthesis.defaultWith]
      exact made_recordWith h (s.expand site) ms none none
  | .date => by
    rw [defaultWith, Sited.erase, Description.date, Synthesis.defaultWith, if_pos rfl]
    rfl
  | .object ms => by
    rw [defaultWith, Sited.erase, Synthesis.defaultWith]
    exact made_recordWith h s ms none none
  | .union ds => by
    rw [defaultWith, Sited.erase, Synthesis.defaultWith]
    exact made_defaultOfFirst h s ds
  | .array element => by
    rw [defaultWith, Sited.erase, Synthesis.defaultWith]
    rfl
  | .literal value => by
    rw [defaultWith, Sited.erase, Synthesis.defaultWith]
    rfl
  | .primitive kind => by
    rw [defaultWith, Sited.erase, Synthesis.defaultWith]
    rfl
  | .reference name => by
    rw [defaultWith, Sited.erase, Synthesis.defaultWith]
    rfl
  | .unsupported kind => by
    rw [defaultWith, Sited.erase, Synthesis.defaultWith]
    rfl

theorem made_defaultOfFirst (h : ∀ s t, (inner s t).made = plain s.scope t) (s : Spot) :
    ∀ ds : List Sited, (defaultOfFirst inner s ds).made =
      Synthesis.defaultOfFirst plain s.scope (Sited.eraseAll ds)
  | [] => by
    rw [defaultOfFirst, Sited.eraseAll, Synthesis.defaultOfFirst]
    rfl
  | d :: ds => by
    rw [defaultOfFirst, Sited.eraseAll, Synthesis.defaultOfFirst]
    exact made_defaultWith h s d

end

end

/-- Describing a type with sites and then going on is describing it and going on. -/
theorem made_sited {α : Type} (c : Catalog) (t : TypeExpr) {f : Sited → Watched α}
    {g : Description → Synthesis α} (h : ∀ d, (f d).made = g d.erase) :
    (unmet (.ofDescribed (c.sited t)) >>= f).made =
      Synthesis.ofDescribed (c.describe t) >>= g := by
  rw [← Catalog.erase_sited]
  show Synthesis.ofDescribed (c.sited t) >>= (fun d => (f d).made) = _
  cases c.sited t with
  | error e => rfl
  | ok d =>
    show Synthesis.bind (Synthesis.pure d) (fun d => (f d).made) =
      Synthesis.bind (Synthesis.pure d.erase) g
    simp only [Synthesis.bind, Synthesis.pure, h]

theorem made_checksOfType (bound : Nat) : ∀ (s : Spot) (a : Accessor) (t : TypeExpr),
    (checksOfType bound s a t).made = Synthesis.checksOfType bound s.scope a t := by
  induction bound with
  | zero => exact fun _ _ _ => rfl
  | succ bound ih => exact fun s a t => made_sited _ t (made_checksWith ih s a)

theorem made_defaultOfType (bound : Nat) : ∀ (s : Spot) (t : TypeExpr),
    (defaultOfType bound s t).made = Synthesis.defaultOfType bound s.scope t := by
  induction bound with
  | zero => exact fun _ _ => rfl
  | succ bound ih => exact fun s t => made_sited _ t (made_defaultWith ih s)

/-- **Watching changes nothing** of what is made for an interface. -/
theorem made_interfaceScript (s : Spot) (unit : Nat) (d : Declaration) :
    (interfaceScript s unit d).made = s.scope.interfaceScript d := by
  let inside := (s.within d.name).expand ⟨unit, d.name⟩
  let bound := s.scope.catalog.expansionBound (TypeExpr.sizeOfMembers d.members)
  have hrecord := made_recordWith (made_defaultOfType bound) inside d.members (some "params")
    (some d.typeName)
  have hchecks := made_objectChecksWith (made_checksOfType bound) inside .value d.members
  show (recordWith (defaultOfType bound) inside d.members (some "params")
      (some d.typeName)).made >>= (fun record =>
    (objectChecksWith (checksOfType bound) inside .value d.members).made >>= fun checks =>
      pure (⟨d, record, checks⟩ : InterfaceScript)) = _
  rw [hrecord, hchecks]
  rfl

end Watched

end InterfaceGuards
