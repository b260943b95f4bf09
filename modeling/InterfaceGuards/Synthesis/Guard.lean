/-
  Guards.

  * `Scope.checksOf`: the statements that check a value against a described type.
  * `Scope.objectChecksOf`: the statements that check an object and its members.

  A member that is no property is left out with a warning.  Any other member
  that cannot be checked is an error.  A class or interface whose members are
  being expanded already is checked by a call of its guard.
-/
import InterfaceGuards.Script.Guard
import InterfaceGuards.Synthesis.Scope

namespace InterfaceGuards

open Script (Accessor Check)

namespace Synthesis

section
variable (inner : Scope → Accessor → TypeExpr → Synthesis (List Check))

/-- The checks of a member, `inner` making those of its type in the member's scope. -/
def memberChecks (s : Scope) (a : Accessor) (m : Member) : Synthesis (List Check) :=
  match m.property? with
  | .error e => do
    warn ((s.within m.displayName).skipped "validator" e)
    pure []
  | .ok (name, type) => do
    let checks ← inner (s.within name) (a.property name) type
    pure (if m.optional then [.whenPresent (a.property name) checks] else checks)

/-- The checks of several members, in order. -/
def membersChecks (s : Scope) (a : Accessor) : List Member → Synthesis (List Check)
  | [] => pure []
  | m :: ms => do
    let checks ← memberChecks inner s a m
    let more ← membersChecks s a ms
    pure (checks ++ more)

/-- The checks that a value is an object with the given members. -/
def objectChecksWith (s : Scope) (a : Accessor) (members : List Member) :
    Synthesis (List Check) := do
  require .isUnknownObject
  let checks ← membersChecks inner s a members
  pure (.isObject a :: checks)

mutual

/-- The checks of a description, `inner` making those of its members. -/
def checksWith (s : Scope) (a : Accessor) : Description → Synthesis (List Check)
  | .classLike name members =>
    if name = Description.dateName then pure [.isDate a]
    else if s.isExpanding name then
      if s.generates name then pure [.passesGuard name a] else fail (.recursive name)
    else objectChecksWith inner (s.expand name) a members
  | .alias name target =>
    if s.isExpanding name then fail (.recursive name) else checksWith (s.expand name) a target
  | .object members => objectChecksWith inner s a members
  | .array element => do
    require .validateVector
    let checks ← checksWith s .value element
    pure [.everyElement a checks]
  | .union alternatives =>
    if alternatives.isEmpty then fail (.unsupported "empty union")
    else do
      let checks ← checksOfAll s a alternatives
      pure [.someAlternative checks]
  | .literal value => pure [.equals a value]
  | .primitive kind => pure (if kind = .null then [.isNull a] else [.hasKind a kind])
  | .reference _ => pure []
  | .unsupported kind => fail (.unsupported kind)

/-- The checks of several descriptions, each by itself. -/
def checksOfAll (s : Scope) (a : Accessor) : List Description → Synthesis (List (List Check))
  | [] => pure []
  | d :: ds => do
    let checks ← checksWith s a d
    let more ← checksOfAll s a ds
    pure (checks :: more)

end

end

/-- The checks of a declared type, made within `bound` members. -/
def checksOfType : (bound : Nat) → Scope → Accessor → TypeExpr → Synthesis (List Check)
  | 0, _, _, _ => endless
  | bound + 1, s, a, type => do
    let d ← ofDescribed (s.catalog.describe type)
    checksWith (checksOfType bound) s a d

end Synthesis

namespace Scope

/-- The checks of a described type. -/
def checksOf (s : Scope) (a : Accessor) (d : Description) : Synthesis (List Check) :=
  Synthesis.checksWith (Synthesis.checksOfType (s.catalog.expansionBound d.size)) s a d

/-- The checks that a value is an object with the given members. -/
def objectChecksOf (s : Scope) (a : Accessor) (members : List Member) : Synthesis (List Check) :=
  Synthesis.objectChecksWith
    (Synthesis.checksOfType (s.catalog.expansionBound (TypeExpr.sizeOfMembers members)))
    s a members

end Scope

end InterfaceGuards
