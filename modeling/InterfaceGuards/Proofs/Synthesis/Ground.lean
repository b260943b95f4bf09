/-
  What is expanded for the declarations of a catalog whose types have been read.

  * `Description.Filled`: no union in a description is empty, at whatever depth.
  * `Catalog.IsRead`: all types of a catalog look as what is read does; their descriptions are then
    filled (`filled_of_describe`).
  * `Catalog.MembersOf`: the members of a declaration, or those of an object type that is written.
  * `Expansion.Grounded`: an expansion of one or the other; what it calls is grounded, too
    (`Grounded.step`), and so is what it leads to.
  * `Synthesis.defaultOfType_ne_emptyUnion`, `checksOfType_ne_emptyUnion`: no default and no checks
    fail for a union without alternatives; nor do those of descriptions (`Scope.defaultOf_ne_emptyUnion`,
    `checksOf_ne_emptyUnion`).
-/
import InterfaceGuards.Proofs.Synthesis.Account
import InterfaceGuards.Proofs.TypeExpr.Shape

namespace InterfaceGuards

open Script (Accessor Check Expr)
open Expansion (Calls Leads Settles)

/-- The error that is raised for a union without alternatives. -/
def SynthesisError.emptyUnion : SynthesisError := .unsupported "empty union"

/-! ## Descriptions -/

/-- No union in the description is empty, and nothing in it is called an empty union. -/
inductive Description.Filled : Description → Prop
  | primitive {kind} : Filled (.primitive kind)
  | literal {x} : Filled (.literal x)
  | array {d} : Filled d → Filled (.array d)
  | object {ms} : Filled (.object ms)
  | union {ds} : ds ≠ [] → (∀ d ∈ ds, Filled d) → Filled (.union ds)
  | classLike {name ms} : Filled (.classLike name ms)
  | named {name d} : Filled d → Filled (.alias name d)
  | reference {name} : Filled (.reference name)
  | unsupported {kind} : kind ≠ "empty union" → Filled (.unsupported kind)

namespace Description.Filled

variable {d : Description}

theorem alternatives_ne_nil (h : d.Filled) : d.alternatives ≠ [] := by
  cases h with
  | union hne _ => exact hne
  | primitive | literal | array | object | classLike | named | reference | unsupported =>
    exact List.cons_ne_nil _ _

theorem of_mem_alternatives (h : d.Filled) : ∀ e ∈ d.alternatives, e.Filled := by
  cases h with
  | union _ hds => exact hds
  | primitive | literal | array | object | classLike | named | reference | unsupported =>
    refine List.forall_mem_singleton.2 ?_
    constructor <;> assumption

theorem aliased (h : d.Filled) (name : String) : (d.aliased name).Filled := by
  cases h with
  | object => exact .named .object
  | primitive | literal | array | union | classLike | named | reference | unsupported =>
    unfold Description.aliased
    constructor <;> assumption

end Description.Filled

namespace Catalog

variable {c : Catalog} {t : TypeExpr} {d : Description}

/-- All types that occur have been read, each in some scope. -/
def IsRead (c : Catalog) : Prop := ∀ t, c.Occurs t → ∃ scope, t.ReadIn scope

namespace IsRead

theorem union_ne_nil (hc : c.IsRead) {ts : List TypeExpr} (h : c.Occurs (.union ts)) :
    ts ≠ [] := by
  obtain ⟨scope, hread⟩ := hc _ h
  cases hread with
  | union htwo _ =>
    rintro rfl
    exact absurd htwo (by decide)

theorem ne_emptyUnion (hc : c.IsRead) {kind : String} (h : c.Occurs (.unsupported kind)) :
    kind ≠ "empty union" := by
  obtain ⟨scope, hread⟩ := hc _ h
  cases hread with
  | unsupported hkind =>
    rintro rfl
    exact absurd hkind (by decide)

theorem formed (hc : c.IsRead) {ms : List Member} (h : c.Occurs (.object ms)) :
    ∀ m ∈ ms, m.Formed := by
  obtain ⟨scope, hread⟩ := hc _ h
  cases hread with
  | object hformed _ => exact hformed

end IsRead

section
variable {follow : String → List TypeExpr → Option Path → Except ResolveError Description}

mutual

theorem filled_of_describeWith (hc : c.IsRead)
    (hf : ∀ {name args origin d}, follow name args origin = .ok d → d.Filled) :
    ∀ {t : TypeExpr} {d : Description}, c.Occurs t → describeWith follow t = .ok d → d.Filled
  | .keyword kind, d, _, h => by cases h; exact .primitive
  | .literal value, d, _, h => by cases h; exact .literal
  | .array element, d, ht, h => by
    obtain ⟨e, he, h⟩ := bind_eq_ok.1 h
    cases h
    exact .array (filled_of_describeWith hc hf (.element ht) he)
  | .object ms, d, _, h => by cases h; exact .object
  | .union ts, d, ht, h => by
    obtain ⟨ds, hds, h⟩ := bind_eq_ok.1 h
    cases h
    obtain ⟨hne, hfilled⟩ := filled_of_describeAll hc hf (fun t hm => .alternative ht hm) hds
    exact .union (hne (hc.union_ne_nil ht)) hfilled
  | .function, d, _, h => by cases h; exact .primitive
  | .param name, d, _, h => by cases h; exact .reference
  | .named name args origin, d, _, h => hf h
  | .unsupported kind, d, ht, h => by cases h; exact .unsupported (hc.ne_emptyUnion ht)

theorem filled_of_describeAll (hc : c.IsRead)
    (hf : ∀ {name args origin d}, follow name args origin = .ok d → d.Filled) :
    ∀ {ts : List TypeExpr} {ds : List Description}, (∀ t ∈ ts, c.Occurs t) →
      describeAll follow ts = .ok ds → (ts ≠ [] → ds ≠ []) ∧ ∀ d ∈ ds, d.Filled
  | [], ds, _, h => by
    cases h
    exact ⟨fun h => absurd rfl h, fun _ hd => by cases hd⟩
  | t :: ts, ds, ht, h => by
    obtain ⟨e, he, h⟩ := bind_eq_ok.1 h
    obtain ⟨es, hes, h⟩ := bind_eq_ok.1 h
    cases h
    obtain ⟨ht, hts⟩ := List.forall_mem_cons.1 ht
    -- What is flattened has an alternative already, so that the whole has one.
    have hfirst := filled_of_describeWith hc hf ht he
    obtain ⟨-, hrest⟩ := filled_of_describeAll hc hf hts hes
    refine ⟨fun _ => List.append_ne_nil_of_left_ne_nil hfirst.alternatives_ne_nil _, fun d hd => ?_⟩
    rcases List.mem_append.1 hd with hd | hd
    · exact hfirst.of_mem_alternatives d hd
    · exact hrest d hd

end

end

theorem filled_of_follow (hc : c.IsRead) {hops : Nat} {name : String} {args : List TypeExpr}
    {origin : Option Path} {d : Description} (h : c.follow hops name args origin = .ok d) :
    d.Filled := by
  cases follow_eq_ok_iff.1 h with
  | date | classLike => exact .classLike
  | generic => exact .reference
  | aliased hfound _ hkind hf =>
    have htarget := Occurs.target (declares_of_lookup? hfound).1 hkind
    exact (filled_of_describeWith hc (filled_of_follow hc) htarget hf).aliased _

/-- **The description of a type that has been read is filled**, whatever aliases are followed and
    unions flattened. -/
theorem filled_of_describe (hc : c.IsRead) (ht : c.Occurs t) (h : c.describe t = .ok d) :
    d.Filled :=
  filled_of_describeWith hc (filled_of_follow hc) ht h

/-! ## Members -/

/-- The members stand in a declaration, or in an object type that is written somewhere. -/
inductive MembersOf (c : Catalog) : List Member → Prop
  | declared {d : Declaration} : c.Declares d → MembersOf c d.members
  | object {ms : List Member} : c.Occurs (.object ms) → MembersOf c ms

theorem MembersOf.occurs {ms : List Member} (h : c.MembersOf ms) {m : Member} (hm : m ∈ ms)
    (ht : m.type = some t) : c.Occurs t := by
  cases h with
  | declared hd => exact .member hd hm ht
  | object ho => exact .property ho hm ht

end Catalog

/-- **A member that is read is malformed only as a method or an index signature**, and then because it
    is no property. -/
theorem MemberOf.Formed.malformed {m : Member} (h : m.Formed) {e : SynthesisError}
    (he : m.property? = .error e) :
    e = .malformedMember m.displayName .notProperty ∧ (m.kind = .method ∨ m.kind = .index) := by
  cases h with
  | property => cases he
  | method => cases he; exact ⟨rfl, .inl rfl⟩
  | index => cases he; exact ⟨rfl, .inr rfl⟩

/-! ## Expansions -/

namespace Expansion

/-- The expansion is one of members that stand in the catalog, of a type that occurs there, or of
    what such types are described as. -/
structure Grounded (c : Catalog) (x : Expansion) : Prop where
  catalog : x.scope.catalog = c
  task : match x.task with
    | .members ms => c.MembersOf ms
    | .type t => c.Occurs t
    | .description d => c.Consists c.Occurs d ∧ d.Filled

variable {c : Catalog} {p : Purpose} {x y : Expansion} {names : List String}

/-- So is what a type that occurs is described as. -/
theorem Grounded.of_describe (hc : c.IsRead) {s : Scope} (hs : s.catalog = c) {t : TypeExpr}
    (ht : c.Occurs t) {d : Description} (hd : c.describe t = .ok d) :
    Grounded c ⟨s, .description d⟩ :=
  ⟨hs, Catalog.consists_of_describe Catalog.closed_occurs ht hd, Catalog.filled_of_describe hc ht hd⟩

/-- **What a grounded expansion calls is grounded.** -/
theorem Grounded.step (hc : c.IsRead) (hx : x.Grounded c) (h : Calls p x y) : y.Grounded c := by
  obtain ⟨hcatalog, htask⟩ := hx
  cases h with
  | member hm hp => exact ⟨hcatalog, htask.occurs hm (MemberOf.type_of_property? hp)⟩
  | described hd =>
    rw [show _ = c from hcatalog] at hd
    exact .of_describe hc hcatalog htask hd
  | classLike hdate hexp =>
    cases htask.1 with
    | date => exact absurd rfl hdate
    | classLike hdecl => exact ⟨hcatalog, .declared hdecl⟩
  | named hexp =>
    cases htask.1 with
    | named hdecl _ ho => exact ⟨hcatalog, .object ho, .object⟩
  | object =>
    cases htask.1 with
    | object ho => exact ⟨hcatalog, .object ho⟩
  | element =>
    obtain ⟨hconsists, hfilled⟩ := htask
    cases hconsists with
    | array hd => cases hfilled with | array hd' => exact ⟨hcatalog, hd, hd'⟩
  | first =>
    obtain ⟨hconsists, hfilled⟩ := htask
    cases hconsists with
    | union hds =>
      cases hfilled with
      | union _ hds' =>
        exact ⟨hcatalog, hds _ List.mem_cons_self, hds' _ List.mem_cons_self⟩
  | alternative hd =>
    obtain ⟨hconsists, hfilled⟩ := htask
    cases hconsists with
    | union hds => cases hfilled with | union _ hds' => exact ⟨hcatalog, hds _ hd, hds' _ hd⟩

/-- What a chain of members leads to is grounded. -/
theorem Grounded.leads (hc : c.IsRead) (hx : x.Grounded c) (h : Leads p x names y) :
    y.Grounded c := by
  induction h with
  | refl => exact hx
  | member hm hp _ ih => exact ih (hx.step (p := p) hc (.member hm hp))
  | call _ hcall _ ih => exact ih (hx.step hc hcall)

/-- A condition that holds of every expansion whose calls it holds of, and of every type while no
    types may be met, holds of all expansions. -/
theorem Settles.of_zero {Q : Nat → Expansion → Prop} (hQ : Settles p Q)
    (hzero : ∀ s t, Q 0 ⟨s, .type t⟩) : ∀ (n : Nat) (x : Expansion), Q n x
  | n, ⟨s, .members ms⟩ => hQ.members fun y hy =>
    have := hy.rank_lt nofun
    of_zero hQ hzero n y
  | n, ⟨s, .description d⟩ => hQ.description fun y hy =>
    have := hy.rank_lt nofun
    of_zero hQ hzero n y
  | 0, ⟨s, .type t⟩ => hzero s t
  | n + 1, ⟨s, .type t⟩ => hQ.type fun y _ => of_zero hQ hzero n y
termination_by n x => (n, x.rank)

end Expansion

namespace Synthesis

variable {c : Catalog} {s : Scope} {n : Notes} {e : SynthesisError} {d : Description}

/-! ## Defaults -/

/-- What a record or a default needs fails with the error, `inner` making the defaults of types. -/
def FailedDefault (inner : Scope → TypeExpr → Synthesis Expr) (e : SynthesisError)
    (x : Expansion) : Prop :=
  match x.task with
  | .members ms => ∃ n, entriesOf inner x.scope ms = ⟨n, .error e⟩
  | .type t => ∃ n, inner x.scope t = ⟨n, .error e⟩
  | .description d => ∃ n, defaultWith inner x.scope d = ⟨n, .error e⟩

/-- The default of a filled description fails for an empty union only because one that it calls for
    does. -/
theorem failed_call_of_defaultWith {inner : Scope → TypeExpr → Synthesis Expr} (hd : d.Filled)
    (h : defaultWith inner s d = ⟨n, .error .emptyUnion⟩) :
    ∃ y, Calls .factory ⟨s, .description d⟩ y ∧ FailedDefault inner .emptyUnion y := by
  cases hd with
  | classLike =>
    rw [defaultWith] at h
    split_ifs at h
    · cases h
    · cases h
    · cases h
    · exact absurd h recordWith_ne_error
  | named =>
    rw [defaultWith] at h
    split_ifs at h with hexp
    · cases h
    · exact ⟨_, .named hexp, n, h⟩
  | object =>
    rw [defaultWith] at h
    exact absurd h recordWith_ne_error
  | @union ds hne hds =>
    cases ds with
    | nil => exact absurd rfl hne
    | cons d ds =>
      rw [defaultWith, defaultOfFirst] at h
      exact ⟨⟨s, .description d⟩, .first, n, h⟩
  | unsupported hkind =>
    rw [defaultWith] at h
    cases h
    exact absurd rfl hkind
  | array | literal | primitive | reference => rw [defaultWith] at h; cases h

theorem settles_grounded_defaults (hc : c.IsRead) : Settles .factory fun bound x =>
    x.Grounded c → ¬ FailedDefault (defaultOfType bound) .emptyUnion x where
  members := by
    rintro bound s ms - - ⟨n, h⟩
    exact entriesOf_ne_error h
  type := by
    rintro bound s t hcalls hx ⟨n, h⟩
    rw [defaultOfType] at h
    rcases ofDescribed_bind_eq_error h with ⟨r, -, -, hr⟩ | ⟨d, hd, h⟩
    · cases hr
    · have hcall : Calls .factory ⟨s, .type t⟩ ⟨s, .description d⟩ := .described hd
      exact hcalls _ hcall (hx.step hc hcall) ⟨n, h⟩
  description := by
    rintro bound s d hcalls hx ⟨n, h⟩
    obtain ⟨y, hcall, hfailed⟩ := failed_call_of_defaultWith hx.task.2 h
    exact hcalls y hcall (hx.step hc hcall) hfailed

/-- No default of what is grounded fails for an empty union. -/
theorem not_failedDefault (hc : c.IsRead) {x : Expansion} (hx : x.Grounded c) (bound : Nat) :
    ¬ FailedDefault (defaultOfType bound) .emptyUnion x :=
  (settles_grounded_defaults hc).of_zero (fun _ _ _ ⟨_, h⟩ => by cases h) bound x hx

/-- **No default fails for an empty union**, of whatever type that occurs and wherever it is made. -/
theorem defaultOfType_ne_emptyUnion (hc : c.IsRead) (hs : s.catalog = c) {t : TypeExpr}
    (ht : c.Occurs t) (bound : Nat) : defaultOfType bound s t ≠ ⟨n, .error .emptyUnion⟩ :=
  fun h => not_failedDefault hc (x := ⟨s, .type t⟩) ⟨hs, ht⟩ bound ⟨n, h⟩

/-! ## Checks -/

/-- The checks of what an expansion is for fail with the error, `inner` making the checks of types. -/
def FailedChecks (inner : Scope → Accessor → TypeExpr → Synthesis (List Check))
    (e : SynthesisError) (a : Accessor) (x : Expansion) : Prop :=
  match x.task with
  | .members ms => ∃ n, membersChecks inner x.scope a ms = ⟨n, .error e⟩
  | .type t => ∃ n, inner x.scope a t = ⟨n, .error e⟩
  | .description d => ∃ n, checksWith inner x.scope a d = ⟨n, .error e⟩

section
variable {inner : Scope → Accessor → TypeExpr → Synthesis (List Check)} {a : Accessor}

theorem failed_call_of_membersChecks {ms : List Member}
    (h : membersChecks inner s a ms = ⟨n, .error e⟩) :
    ∃ y a', Calls .guard ⟨s, .members ms⟩ y ∧ FailedChecks inner e a' y := by
  obtain ⟨m, hm, name, t, k, hp, hinner⟩ := membersChecks_eq_error h
  exact ⟨_, _, .member hm hp, k, hinner⟩

/-- The checks of a filled description fail for an empty union only because ones that they call for
    do. -/
theorem failed_call_of_checksWith (hd : d.Filled)
    (h : checksWith inner s a d = ⟨n, .error .emptyUnion⟩) :
    ∃ y a', Calls .guard ⟨s, .description d⟩ y ∧ FailedChecks inner .emptyUnion a' y := by
  cases hd with
  | classLike =>
    rw [checksWith] at h
    split_ifs at h with hdate hexp hgen
    · cases h
    · cases h
    · cases h
    · exact ⟨_, a, .classLike hdate hexp (fun hp => by cases hp), objectChecksWith_eq_error h⟩
  | named =>
    rw [checksWith] at h
    split_ifs at h with hexp
    · cases h
    · exact ⟨_, a, .named hexp, n, h⟩
  | object =>
    rw [checksWith] at h
    exact ⟨_, a, .object, objectChecksWith_eq_error h⟩
  | @array d =>
    exact ⟨⟨s, .description d⟩, .value, .element, checksWith_array_eq_error h⟩
  | union hne _ =>
    obtain ⟨hempty, -⟩ | h := checksWith_union_eq_error h
    · exact absurd hempty hne
    · obtain ⟨d', hd', hfailed⟩ := checksOfAll_eq_error h
      exact ⟨⟨s, .description d'⟩, a, .alternative hd', hfailed⟩
  | unsupported hkind =>
    rw [checksWith] at h
    cases h
    exact absurd rfl hkind
  | literal | primitive | reference => rw [checksWith] at h; cases h

end

theorem settles_grounded_checks (hc : c.IsRead) : Settles .guard fun bound x =>
    x.Grounded c → ∀ a, ¬ FailedChecks (checksOfType bound) .emptyUnion a x where
  members := by
    rintro bound s ms hcalls hx a ⟨n, h⟩
    obtain ⟨y, a', hcall, hfailed⟩ := failed_call_of_membersChecks h
    exact hcalls y hcall (hx.step hc hcall) a' hfailed
  type := by
    rintro bound s t hcalls hx a ⟨n, h⟩
    rw [checksOfType] at h
    rcases ofDescribed_bind_eq_error h with ⟨r, -, -, hr⟩ | ⟨d, hd, h⟩
    · cases hr
    · have hcall : Calls .guard ⟨s, .type t⟩ ⟨s, .description d⟩ := .described hd
      exact hcalls _ hcall (hx.step hc hcall) a ⟨n, h⟩
  description := by
    rintro bound s d hcalls hx a ⟨n, h⟩
    obtain ⟨y, a', hcall, hfailed⟩ := failed_call_of_checksWith hx.task.2 h
    exact hcalls y hcall (hx.step hc hcall) a' hfailed

/-- No checks of what is grounded fail for an empty union. -/
theorem not_failedChecks (hc : c.IsRead) {x : Expansion} (hx : x.Grounded c) (bound : Nat)
    (a : Accessor) : ¬ FailedChecks (checksOfType bound) .emptyUnion a x :=
  (settles_grounded_checks hc).of_zero (fun _ _ _ _ ⟨_, h⟩ => by cases h) bound x hx a

/-- **No checks fail for an empty union**, of whatever type that occurs and wherever they are made. -/
theorem checksOfType_ne_emptyUnion (hc : c.IsRead) (hs : s.catalog = c) {t : TypeExpr}
    (ht : c.Occurs t) (bound : Nat) (a : Accessor) :
    checksOfType bound s a t ≠ ⟨n, .error .emptyUnion⟩ :=
  fun h => not_failedChecks hc (x := ⟨s, .type t⟩) ⟨hs, ht⟩ bound a ⟨n, h⟩

end Synthesis

namespace Scope

variable {c : Catalog} {s : Scope} {n : Notes} {t : TypeExpr} {d : Description}

/-- Nor does the default of a description, where the type that it describes occurs. -/
theorem defaultOf_ne_emptyUnion (hc : c.IsRead) (hs : s.catalog = c) (ht : c.Occurs t)
    (hd : c.describe t = .ok d) : s.defaultOf d ≠ ⟨n, .error .emptyUnion⟩ :=
  fun h => Synthesis.not_failedDefault hc (.of_describe hc hs ht hd) _ ⟨n, h⟩

/-- Nor do the checks of a description, where the type that it describes occurs. -/
theorem checksOf_ne_emptyUnion (hc : c.IsRead) (hs : s.catalog = c) (ht : c.Occurs t)
    (hd : c.describe t = .ok d) (a : Accessor) : s.checksOf a d ≠ ⟨n, .error .emptyUnion⟩ :=
  fun h => Synthesis.not_failedChecks hc (.of_describe hc hs ht hd) _ a ⟨n, h⟩

end Scope

end InterfaceGuards
