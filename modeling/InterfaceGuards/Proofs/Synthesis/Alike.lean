/-
  Scopes in which the same is made.

  * `Scope.Alike`: scopes at one place, where types have the same descriptions and the same guards
    are generated.
  * `objectChecksOf_alike`, `recordOf_alike`: the same checks are made there, and the same defaults,
    or there are none for the same reason; and the same is noted.
-/
import InterfaceGuards.Synthesis.Default
import InterfaceGuards.Synthesis.Guard
import Mathlib.Tactic.SplitIfs

namespace InterfaceGuards

open Script (Accessor Check Expr)

/-- The scopes are at one place, and what is made there of a type does not differ: the type has the
    same description, may be expanded as deep, and finds the same guards. -/
structure Scope.Alike (s s' : Scope) : Prop where
  describe : s'.catalog.describe = s.catalog.describe
  bound : s'.catalog.expansionBound = s.catalog.expansionBound
  generates : s'.generates = s.generates
  place : s'.unit.path = s.unit.path
  expanding : s'.expanding = s.expanding
  path : s'.path = s.path

namespace Scope.Alike

variable {s s' : Scope}

theorem within (h : s.Alike s') (segment : String) : (s.within segment).Alike (s'.within segment) :=
  ⟨h.describe, h.bound, h.generates, h.place, h.expanding, congrArg (segment :: ·) h.path⟩

theorem expand (h : s.Alike s') (name : String) : (s.expand name).Alike (s'.expand name) :=
  ⟨h.describe, h.bound, h.generates, h.place, congrArg (name :: ·) h.expanding, h.path⟩

theorem isExpanding (h : s.Alike s') : s'.isExpanding = s.isExpanding := by
  funext name
  rw [Scope.isExpanding, h.expanding, Scope.isExpanding]

theorem skipped (h : s.Alike s') : s'.skipped = s.skipped := by
  funext phase e
  simp only [Scope.skipped, Scope.warning, Scope.location, h.place, h.path]

end Scope.Alike

namespace Synthesis

variable {s s' : Scope}

/-! ## Checks -/

section
variable {inner : Scope → Accessor → TypeExpr → Synthesis (List Check)}
  (hi : ∀ {s s' : Scope}, s.Alike s' → inner s' = inner s) {a : Accessor}
include hi

theorem memberChecks_alike (h : s.Alike s') (m : Member) :
    memberChecks inner s' a m = memberChecks inner s a m := by
  unfold memberChecks
  cases m.property? with
  | error e => simp only [(h.within _).skipped]
  | ok named => simp only [hi (h.within _)]

theorem membersChecks_alike (h : s.Alike s') (ms : List Member) :
    membersChecks inner s' a ms = membersChecks inner s a ms := by
  induction ms with
  | nil => rfl
  | cons m ms ih => rw [membersChecks, membersChecks, memberChecks_alike hi h, ih]

theorem objectChecksWith_alike (h : s.Alike s') (ms : List Member) :
    objectChecksWith inner s' a ms = objectChecksWith inner s a ms := by
  rw [objectChecksWith, objectChecksWith, membersChecks_alike hi h]

end

section
variable {inner : Scope → Accessor → TypeExpr → Synthesis (List Check)}

mutual

theorem checksWith_alike (hi : ∀ {s s' : Scope}, s.Alike s' → inner s' = inner s) :
    ∀ (d : Description) {s s' : Scope} {a : Accessor}, s.Alike s' →
      checksWith inner s' a d = checksWith inner s a d
  | .classLike name ms, s, s', a, h => by
    rw [checksWith, checksWith, h.isExpanding, h.generates,
      objectChecksWith_alike hi (h.expand name)]
  | .alias name target, s, s', a, h => by
    rw [checksWith, checksWith, h.isExpanding, checksWith_alike hi target (h.expand name)]
  | .object ms, s, s', a, h => by rw [checksWith, checksWith, objectChecksWith_alike hi h]
  | .array element, s, s', a, h => by rw [checksWith, checksWith, checksWith_alike hi element h]
  | .union ds, s, s', a, h => by rw [checksWith, checksWith, checksOfAll_alike hi ds h]
  | .literal _, s, s', a, h | .primitive _, s, s', a, h | .reference _, s, s', a, h
  | .unsupported _, s, s', a, h => by rw [checksWith, checksWith]

theorem checksOfAll_alike (hi : ∀ {s s' : Scope}, s.Alike s' → inner s' = inner s) :
    ∀ (ds : List Description) {s s' : Scope} {a : Accessor}, s.Alike s' →
      checksOfAll inner s' a ds = checksOfAll inner s a ds
  | [], s, s', a, h => by rw [checksOfAll, checksOfAll]
  | d :: ds, s, s', a, h => by
    rw [checksOfAll, checksOfAll, checksWith_alike hi d h, checksOfAll_alike hi ds h]

end

end

/-- The same checks are made of a declared type. -/
theorem checksOfType_alike (bound : Nat) {s s' : Scope} (h : s.Alike s') :
    checksOfType bound s' = checksOfType bound s := by
  induction bound generalizing s s' with
  | zero => rfl
  | succ bound ih =>
    funext a t
    rw [checksOfType, checksOfType, h.describe]
    congr 1
    funext d
    exact checksWith_alike ih d h

/-! ## Defaults -/

section
variable {inner : Scope → TypeExpr → Synthesis Expr}
  (hi : ∀ {s s' : Scope}, s.Alike s' → inner s' = inner s)
include hi

theorem entryOf_alike (h : s.Alike s') (m : Member) : entryOf inner s' m = entryOf inner s m := by
  unfold entryOf
  cases m.property? with
  | error e => simp only [(h.within _).skipped]
  | ok named => simp only [hi (h.within _), (h.within _).skipped]

theorem entriesOf_alike (h : s.Alike s') (ms : List Member) :
    entriesOf inner s' ms = entriesOf inner s ms := by
  induction ms with
  | nil => rfl
  | cons m ms ih => rw [entriesOf, entriesOf, entryOf_alike hi h, ih]

theorem recordWith_alike (h : s.Alike s') (ms : List Member) (spread cast : Option String) :
    recordWith inner s' ms spread cast = recordWith inner s ms spread cast := by
  rw [recordWith, recordWith, entriesOf_alike hi h]

end

section
variable {inner : Scope → TypeExpr → Synthesis Expr}

mutual

theorem defaultWith_alike (hi : ∀ {s s' : Scope}, s.Alike s' → inner s' = inner s) :
    ∀ (d : Description) {s s' : Scope}, s.Alike s' → defaultWith inner s' d = defaultWith inner s d
  | .classLike name ms, s, s', h => by
    rw [defaultWith, defaultWith, h.isExpanding, recordWith_alike hi (h.expand name)]
  | .alias name target, s, s', h => by
    rw [defaultWith, defaultWith, h.isExpanding, defaultWith_alike hi target (h.expand name)]
  | .object ms, s, s', h => by rw [defaultWith, defaultWith, recordWith_alike hi h]
  | .union ds, s, s', h => by rw [defaultWith, defaultWith, defaultOfFirst_alike hi ds h]
  | .array _, s, s', h | .literal _, s, s', h | .primitive _, s, s', h | .reference _, s, s', h
  | .unsupported _, s, s', h => by rw [defaultWith, defaultWith]

theorem defaultOfFirst_alike (hi : ∀ {s s' : Scope}, s.Alike s' → inner s' = inner s) :
    ∀ (ds : List Description) {s s' : Scope}, s.Alike s' →
      defaultOfFirst inner s' ds = defaultOfFirst inner s ds
  | [], s, s', h => by rw [defaultOfFirst, defaultOfFirst]
  | d :: _, s, s', h => by rw [defaultOfFirst, defaultOfFirst, defaultWith_alike hi d h]

end

end

/-- The same default is made of a declared type. -/
theorem defaultOfType_alike (bound : Nat) {s s' : Scope} (h : s.Alike s') :
    defaultOfType bound s' = defaultOfType bound s := by
  induction bound generalizing s s' with
  | zero => rfl
  | succ bound ih =>
    funext t
    rw [defaultOfType, defaultOfType, h.describe]
    congr 1
    funext d
    exact defaultWith_alike ih d h

end Synthesis

namespace Scope

variable {s s' : Scope}

/-- **The same checks** are made of an object. -/
theorem objectChecksOf_alike (h : s.Alike s') (a : Accessor) (ms : List Member) :
    s'.objectChecksOf a ms = s.objectChecksOf a ms := by
  rw [objectChecksOf, objectChecksOf, h.bound]
  exact Synthesis.objectChecksWith_alike (Synthesis.checksOfType_alike _) h ms

/-- **The same record** is made of members. -/
theorem recordOf_alike (h : s.Alike s') (ms : List Member) (spread cast : Option String) :
    s'.recordOf ms spread cast = s.recordOf ms spread cast := by
  rw [recordOf, recordOf, h.bound]
  exact Synthesis.recordWith_alike (Synthesis.defaultOfType_alike _) h ms spread cast

end Scope

end InterfaceGuards
