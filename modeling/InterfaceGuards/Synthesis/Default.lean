/-
  Default values.

  * `Scope.defaultOf`: the expression for the default value of a described type.
  * `Scope.recordOf`: the record with a default value for every member.

  A member whose default cannot be made is left out of its record with a
  warning, unless it is optional: then it is `undefined`.
-/
import InterfaceGuards.Script.Factory
import InterfaceGuards.Synthesis.Scope

namespace InterfaceGuards

open Script (Expr)

namespace Synthesis

section
variable (inner : Scope → TypeExpr → Synthesis Expr)

/-- The entry of a member, `inner` making the default of its type in the member's scope. -/
def entryOf (s : Scope) (m : Member) : Synthesis (Option (String × Expr)) :=
  match m.property? with
  | .error e => do
    warn ((s.within m.displayName).skipped "default" e)
    pure none
  | .ok (name, type) => do
    match ← attempt (inner (s.within name) type) with
    | .ok value => pure (some (name, value))
    | .error e =>
      if m.optional then pure (some (name, .undefined))
      else do
        warn ((s.within name).skipped "default" e)
        pure none

/-- The entries of several members, in order. -/
def entriesOf (s : Scope) : List Member → Synthesis (List (String × Expr))
  | [] => pure []
  | m :: ms => do
    let entry ← entryOf inner s m
    let entries ← entriesOf s ms
    pure (entry.toList ++ entries)

/-- The record of several members. -/
def recordWith (s : Scope) (members : List Member) (spread cast : Option String) :
    Synthesis Expr := do
  let entries ← entriesOf inner s members
  pure (.record entries spread cast)

mutual

/-- The default value of a description, `inner` making the defaults of its members. -/
def defaultWith (s : Scope) : Description → Synthesis Expr
  | .classLike name members =>
    if name = Description.dateName then pure .newDate
    else if s.isExpanding name then fail (.recursive name)
    else if members.isEmpty then fail (.emptyStructure name)
    else recordWith inner (s.expand name) members none none
  | .alias name target =>
    if s.isExpanding name then fail (.recursive name) else defaultWith (s.expand name) target
  | .object members => recordWith inner s members none none
  | .union alternatives => defaultOfFirst s alternatives
  | .array _ => pure .emptyArray
  | .literal value => pure (.literal value)
  | .primitive kind => pure (.zero kind)
  | .reference name => fail (.noDefault name)
  | .unsupported kind => fail (.unsupported kind)

/-- The default value of the first of several alternatives. -/
def defaultOfFirst (s : Scope) : List Description → Synthesis Expr
  | [] => fail (.unsupported "empty union")
  | d :: _ => defaultWith s d

end

end

/-- The default value of a declared type, made within `bound` members. -/
def defaultOfType : (bound : Nat) → Scope → TypeExpr → Synthesis Expr
  | 0, _, _ => endless
  | bound + 1, s, type => do
    let d ← ofDescribed (s.catalog.describe type)
    defaultWith (defaultOfType bound) s d

end Synthesis

namespace Scope

/-- The default value of a described type. -/
def defaultOf (s : Scope) (d : Description) : Synthesis Expr :=
  Synthesis.defaultWith (Synthesis.defaultOfType (s.catalog.expansionBound d.size)) s d

/-- The record with a default value for every member, perhaps followed by the entries of another
    object and cast to a type. -/
def recordOf (s : Scope) (members : List Member) (spread cast : Option String) : Synthesis Expr :=
  Synthesis.recordWith
    (Synthesis.defaultOfType (s.catalog.expansionBound (TypeExpr.sizeOfMembers members)))
    s members spread cast

end Scope

end InterfaceGuards
