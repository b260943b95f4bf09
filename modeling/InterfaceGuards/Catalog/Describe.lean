/-
  Describing declared types.

  * `Catalog.describe`: what a declared type amounts to, or why it amounts to nothing.
  * `Catalog.describeReference`: the same for a reference by name.

  Unions are flattened, aliases are followed, and interfaces and classes are
  answered with their members.  An alias that does not come to an end within
  `Catalog.aliasHops` aliases is taken to refer to itself.
-/
import InterfaceGuards.Declaration
import InterfaceGuards.Description

namespace InterfaceGuards

/-- Why a declared type amounts to nothing. -/
inductive ResolveError where
  | unknownType (name : String)
  | aliasCycle (name : String)
deriving DecidableEq, Repr

namespace ResolveError

/-- The name at fault. -/
def name : ResolveError → String
  | .unknownType name => name
  | .aliasCycle name => name

/-- The wording of the error. -/
def message : ResolveError → String
  | .unknownType name => "unknown type `" ++ name ++ "`"
  | .aliasCycle name => "type alias `" ++ name ++ "` refers to itself"

end ResolveError

/-- The description of an alias: an object keeps the name, anything else stands for itself. -/
def Description.aliased (name : String) : Description → Description
  | .object ms => .alias name (.object ms)
  | d => d

namespace Catalog

/-- How many aliases may stand behind one another. -/
def aliasHops : Nat := 64

section
variable (follow : String → List TypeExpr → Option Path → Except ResolveError Description)

mutual

/-- The description of a type, `follow` describing references by name. -/
def describeWith : TypeExpr → Except ResolveError Description
  | .keyword kind => .ok (.primitive kind)
  | .literal value => .ok (.literal value)
  | .array element => do
    let d ← describeWith element
    .ok (.array d)
  | .object members => .ok (.object members)
  | .union types => do
    let ds ← describeAll types
    .ok (.union ds)
  | .function => .ok (.primitive .function)
  | .param name => .ok (.reference name)
  | .named name args origin => follow name args origin
  | .unsupported kind => .ok (.unsupported kind)

/-- The alternatives of the descriptions of several types, in order. -/
def describeAll : List TypeExpr → Except ResolveError (List Description)
  | [] => .ok []
  | t :: ts => do
    let d ← describeWith t
    let ds ← describeAll ts
    .ok (d.alternatives ++ ds)

end

end

/-- The description of a reference by name, behind which at most `hops` aliases may stand. -/
def follow (c : Catalog) (hops : Nat) (name : String) (args : List TypeExpr)
    (origin : Option Path) : Except ResolveError Description :=
  match c.lookup? name origin with
  | none =>
    if name = Description.dateName ∧ args.isEmpty then .ok .date else .error (.unknownType name)
  | some d =>
    if !args.isEmpty || d.isGeneric then .ok (.reference (TypeExpr.named name args origin).display)
    else
      match d.kind, hops with
      | .alias _, 0 => .error (.aliasCycle d.name)
      | .alias target, hops + 1 => (describeWith (c.follow hops) target).map (·.aliased d.name)
      | _, _ => .ok (.classLike d.name d.members)

/-- The description of a reference by name. -/
def describeReference (c : Catalog) (name : String) (args : List TypeExpr)
    (origin : Option Path) : Except ResolveError Description :=
  c.follow aliasHops name args origin

/-- The description of a type. -/
def describe (c : Catalog) (type : TypeExpr) : Except ResolveError Description :=
  describeWith c.describeReference type

end Catalog

end InterfaceGuards
