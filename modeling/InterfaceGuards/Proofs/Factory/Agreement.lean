/-
  The default value of a type passes the checks of the type.

  * `Catalog.DistinctMembers`: the members of one object have different names.
  * `Agrees`: what is made as the default of a type passes what is made as its checks.
  * `Agrees.checksWith`: defaults and checks of a description agree when those of the members do.
  * `agrees_ofType`: they agree for every declared type, however many members are passed through.

  Both sides go through the same scopes: where checks become the call of a guard, no default is
  made.
-/
import InterfaceGuards.Proofs.Catalog.Occurrence
import InterfaceGuards.Proofs.Factory.Default
import InterfaceGuards.Proofs.Factory.Evaluation
import InterfaceGuards.Proofs.Guard.Correctness
import InterfaceGuards.Proofs.TypeExpr.Number

namespace InterfaceGuards

open Script (Accessor Check Environment Expr Passes Value)

/-- The members of every object type have different names, declared or not. -/
structure Catalog.DistinctMembers (c : Catalog) : Prop where
  declared : ∀ {d}, c.Declares d → (d.members.filterMap (·.name)).Nodup
  object : ∀ {ms}, c.Occurs (.object ms) → (ms.filterMap (·.name)).Nodup

variable {c : Catalog} {properties : String → List (String × Value)}

/-- What `make` makes as the default of a type passes what `check` makes as its checks, in an
    environment in which helpers do what they are for. -/
def Agrees (c : Catalog) (properties : String → List (String × Value))
    (make : Scope → TypeExpr → Synthesis Expr)
    (check : Scope → Accessor → TypeExpr → Synthesis (List Check)) : Prop :=
  ∀ {s : Scope} {a : Accessor} {t : TypeExpr} {m n : Notes} {e : Expr} {checks : List Check}
    {env : Environment}, s.catalog = c → c.Occurs t → make s t = ⟨m, .value e⟩ → m.OnlyForm →
    check s a t = ⟨n, .value checks⟩ → n.OfferedBy env →
    a.term.eval env = .ok (e.eval properties) → Passes env (Check.statements checks)

namespace Agrees

variable {make : Scope → TypeExpr → Synthesis Expr}
  {check : Scope → Accessor → TypeExpr → Synthesis (List Check)} {s : Scope} {a : Accessor}
  {m n : Notes} {env : Environment}

/-! ## Members -/

section
variable (ha : Agrees c properties make check)
  (hm : ∀ {s t n e}, make s t = ⟨n, .error e⟩ → e.isMalformed = false) (hc : s.catalog = c)
include ha hm hc

/-- The entry of a member passes the checks of the member. -/
theorem memberChecks {member : Member} (ht : ∀ t, member.type = some t → c.Occurs t)
    {entry : Option (String × Expr)} {checks : List Check}
    (hentry : Synthesis.entryOf make s member = ⟨m, .value entry⟩) (hform : m.OnlyForm)
    (hchecks : Synthesis.memberChecks check s a member = ⟨n, .value checks⟩)
    (ho : n.OfferedBy env)
    (hread : ∀ name e, entry = some (name, e) →
      (a.property name).term.eval env = .ok (e.eval properties)) :
    Passes env (Check.statements checks) := by
  rcases Synthesis.memberChecks_eq_value hchecks with
    ⟨_, -, rfl, -⟩ | ⟨name, t, made, hp, hinner, rfl⟩
  · exact .nil
  · rcases Synthesis.entryOf_eq_value hentry with ⟨_, hp', -⟩ | ⟨_, _, hp', hmade⟩
    · rw [hp] at hp'; cases hp'
    obtain ⟨rfl, rfl⟩ := Prod.mk.inj (Except.ok.inj (hp.symm.trans hp'))
    rcases hmade with ⟨e, he, rfl⟩ | ⟨k, e, he, ⟨hopt, rfl, -⟩ | ⟨-, rfl, rfl⟩⟩
    · have hv := hread name e rfl
      have hpass := ha (s := s.within name) hc (ht t (member.type_of_property? hp)) he hform hinner
        ho hv
      split_ifs
      · exact Script.passes_whenPresent hv hpass
      · exact hpass
    · rw [if_pos hopt]
      exact Script.passes_whenPresent_undefined (hread name .undefined rfl) made
    · -- A default that is left out is warned about, and not for its form.
      have hmalformed := Scope.isMalformed_of_skipped
        (hform _ (List.mem_append_right _ (List.mem_singleton_self _)) rfl)
      rw [hm he] at hmalformed
      cases hmalformed

theorem membersChecks : ∀ {ms : List Member} {m n : Notes} {entries : List (String × Expr)}
    {checks : List Check}, (∀ member ∈ ms, ∀ t, member.type = some t → c.Occurs t) →
    Synthesis.entriesOf make s ms = ⟨m, .value entries⟩ → m.OnlyForm →
    Synthesis.membersChecks check s a ms = ⟨n, .value checks⟩ →
    n.OfferedBy env →
    (∀ name e, (name, e) ∈ entries → (a.property name).term.eval env = .ok (e.eval properties)) →
    Passes env (Check.statements checks)
  | [], m, n, entries, checks, _, _, _, hchecks, _, _ => by
    obtain ⟨-, rfl⟩ := Synthesis.pure_eq_value.1 hchecks
    exact .nil
  | member :: ms, m, n, entries, checks, ht, hentries, hform, hchecks, ho, hread => by
    obtain ⟨i, entry, j, more, hentry, hmore, rfl, rfl⟩ := Synthesis.entriesOf_cons hentries
    obtain ⟨k, first, l, others, hfirst, hothers, rfl, rfl⟩ :=
      Synthesis.membersChecks_cons hchecks
    rw [Check.statements_append]
    refine Passes.append ?_ ?_
    · exact ha.memberChecks hm hc (ht member (by simp)) hentry hform.left hfirst ho.left
        fun name e he => hread name e (by simp [he])
    · exact membersChecks (fun m' hm' => ht m' (by simp [hm'])) hmore hform.right hothers
        ho.right fun name e he => hread name e (by simp [he])

/-- **A record passes the checks of the object type it is made for.** -/
theorem objectChecksWith {ms : List Member} (hn : (ms.filterMap (·.name)).Nodup)
    (ht : ∀ member ∈ ms, ∀ t, member.type = some t → c.Occurs t) {spread cast : Option String}
    (hs : Script.spreadProperties properties spread = []) {e : Expr} {checks : List Check}
    (hrecord : Synthesis.recordWith make s ms spread cast = ⟨m, .value e⟩) (hform : m.OnlyForm)
    (hchecks : Synthesis.objectChecksWith check s a ms = ⟨n, .value checks⟩)
    (ho : n.OfferedBy env) (hv : a.term.eval env = .ok (e.eval properties)) :
    Passes env (Check.statements checks) := by
  obtain ⟨entries, hentries, rfl⟩ := Synthesis.bind_pure_eq_value.1 hrecord
  obtain ⟨k, made, hmade, rfl, rfl⟩ := Synthesis.objectChecksWith_eq_value hchecks
  have offers := ho.left .isUnknownObject (by simp)
  refine Passes.append ((Script.decides_isObject offers hv).passes rfl) ?_
  refine ha.membersChecks hm hc ht hentries hform hmade ho.right fun name e' he' => ?_
  exact eval_property hv
    (Script.property?_record ((Synthesis.names_entriesOf hentries).nodup hn) hs he')

end

/-! ## Descriptions -/

section
variable {e : Expr} {checks : List Check}

theorem primitive {kind : Primitive}
    (he : Synthesis.defaultWith make s (.primitive kind) = ⟨m, .value e⟩)
    (hchecks : Synthesis.checksWith check s a (.primitive kind) = ⟨n, .value checks⟩)
    (hv : a.term.eval env = .ok (e.eval properties)) : Passes env (Check.statements checks) := by
  rw [Synthesis.defaultWith] at he
  rw [Synthesis.checksWith] at hchecks
  obtain ⟨-, rfl⟩ := Synthesis.pure_eq_value.1 he
  obtain ⟨-, rfl⟩ := Synthesis.pure_eq_value.1 hchecks
  split_ifs with hk
  · rw [hk] at hv
    exact (Script.decides_isNull hv).passes rfl
  · refine (Script.decides_hasKind hv kind).passes ?_
    cases kind with
    | null => exact absurd rfl hk
    | _ => rfl

/-- The default of an array has no elements to be checked. -/
theorem array {element : Description}
    (he : Synthesis.defaultWith make s (.array element) = ⟨m, .value e⟩)
    (hchecks : Synthesis.checksWith check s a (.array element) = ⟨n, .value checks⟩)
    (ho : n.OfferedBy env) (hv : a.term.eval env = .ok (e.eval properties)) :
    Passes env (Check.statements checks) := by
  rw [Synthesis.defaultWith] at he
  obtain ⟨-, rfl⟩ := Synthesis.pure_eq_value.1 he
  obtain ⟨k, made, -, rfl, rfl⟩ := Synthesis.checksWith_array hchecks
  have offers := ho.left .validateVector (by simp)
  have no_elements (es : List Value)
      (hes : (Expr.emptyArray.eval properties).elements? = some es) : es = [] :=
    (Option.some.inj hes).symm
  refine (Script.decides_everyElement (P := fun _ => True) offers hv ?_).passes ⟨[], rfl, by simp⟩
  intro es hes w hw
  rw [no_elements es hes] at hw
  cases hw

end

section
variable (ha : Agrees c properties make check)
  (hm : ∀ {s t n e}, make s t = ⟨n, .error e⟩ → e.isMalformed = false)
  (hd : c.DistinctMembers) (hn : ∀ {t}, c.Occurs t → t.Numbered)
include ha hm hd

/-- The default of a class or interface is a date, or a record of its members. -/
theorem classLike {name : String} {ms : List Member} {e : Expr} {checks : List Check}
    (hx : c.Arises (.classLike name ms)) (hc : s.catalog = c)
    (he : Synthesis.defaultWith make s (.classLike name ms) = ⟨m, .value e⟩) (hform : m.OnlyForm)
    (hchecks : Synthesis.checksWith check s a (.classLike name ms) = ⟨n, .value checks⟩)
    (ho : n.OfferedBy env) (hv : a.term.eval env = .ok (e.eval properties)) :
    Passes env (Check.statements checks) := by
  rw [Synthesis.defaultWith] at he
  rw [Synthesis.checksWith] at hchecks
  split_ifs at he with hdate hexp hempty
  · obtain ⟨-, rfl⟩ := Synthesis.pure_eq_value.1 he
    rw [if_pos hdate] at hchecks
    obtain ⟨-, rfl⟩ := Synthesis.pure_eq_value.1 hchecks
    exact (Script.decides_isDate hv).passes rfl
  · exact absurd he Synthesis.fail_ne_value
  · exact absurd he Synthesis.fail_ne_value
  · rw [if_neg hdate, if_neg hexp] at hchecks
    cases hx with
    | date => exact absurd rfl hdate
    | classLike hdecl =>
      exact ha.objectChecksWith (s := s.expand _) hm hc (hd.declared hdecl)
        hdecl.members_occur rfl he hform hchecks ho hv

include hn

end

mutual

/-- **The default of a description passes its checks.** -/
theorem checksWith (ha : Agrees c properties make check)
    (hm : ∀ {s t n e}, make s t = ⟨n, .error e⟩ → e.isMalformed = false) (hd : c.DistinctMembers)
    (hn : ∀ {t}, c.Occurs t → t.Numbered) :
    ∀ {d : Description} {s : Scope} {a : Accessor} {m n : Notes} {e : Expr}
      {checks : List Check} {env : Environment}, c.Arises d → s.catalog = c →
      Synthesis.defaultWith make s d = ⟨m, .value e⟩ → m.OnlyForm →
      Synthesis.checksWith check s a d = ⟨n, .value checks⟩ → n.OfferedBy env →
      a.term.eval env = .ok (e.eval properties) → Passes env (Check.statements checks)
  | .primitive kind, s, a, m, n, e, checks, env, _, _, he, _, hchecks, _, hv =>
    primitive he hchecks hv
  | .literal x, s, a, m, n, e, checks, env, hx, _, he, _, hchecks, _, hv => by
    rw [Synthesis.defaultWith] at he
    rw [Synthesis.checksWith] at hchecks
    obtain ⟨-, rfl⟩ := Synthesis.pure_eq_value.1 he
    obtain ⟨-, rfl⟩ := Synthesis.pure_eq_value.1 hchecks
    refine (Script.decides_equals hv x).passes (Value.same_ofLiteral ?_)
    cases hx with
    | literal hx =>
      cases hn hx with
      | literal hx => exact fun h => (hx _ h).ne_nan rfl
  | .array element, s, a, m, n, e, checks, env, _, _, he, _, hchecks, ho, hv =>
    array he hchecks ho hv
  | .object ms, s, a, m, n, e, checks, env, hx, hc, he, hform, hchecks, ho, hv => by
    rw [Synthesis.defaultWith] at he
    rw [Synthesis.checksWith] at hchecks
    cases hx with
    | object hx =>
      exact ha.objectChecksWith hm hc (hd.object hx) (fun _ hmem _ ht => .property hx hmem ht) rfl
        he hform hchecks ho hv
  | .union ds, s, a, m, n, e, checks, env, hx, hc, he, hform, hchecks, ho, hv => by
    rw [Synthesis.defaultWith] at he
    obtain ⟨made, hmade, rfl⟩ := Synthesis.checksWith_union hchecks
    cases hx with
    | union hx =>
      obtain ⟨first, rest, rfl, hpass⟩ := checksOfAll ha hm hd hn hx hc he hform hmade ho hv
      exact Script.passes_someAlternative hpass rest
  | .classLike name ms, s, a, m, n, e, checks, env, hx, hc, he, hform, hchecks, ho, hv =>
    ha.classLike hm hd hx hc he hform hchecks ho hv
  | .alias name target, s, a, m, n, e, checks, env, hx, hc, he, hform, hchecks, ho, hv => by
    rw [Synthesis.defaultWith] at he
    rw [Synthesis.checksWith] at hchecks
    split_ifs at he with hexp
    · exact absurd he Synthesis.fail_ne_value
    · rw [if_neg hexp] at hchecks
      cases hx with
      | named _ _ hx =>
        exact checksWith ha hm hd hn (s := s.expand _) (.object hx) hc he hform hchecks ho hv
  | .reference name, s, a, m, n, e, checks, env, _, _, he, _, _, _, _ => by
    rw [Synthesis.defaultWith] at he
    exact absurd he Synthesis.fail_ne_value
  | .unsupported kind, s, a, m, n, e, checks, env, _, _, he, _, _, _, _ => by
    rw [Synthesis.defaultWith] at he
    exact absurd he Synthesis.fail_ne_value

/-- The default of the first of several descriptions passes the checks of the first. -/
theorem checksOfAll (ha : Agrees c properties make check)
    (hm : ∀ {s t n e}, make s t = ⟨n, .error e⟩ → e.isMalformed = false) (hd : c.DistinctMembers)
    (hn : ∀ {t}, c.Occurs t → t.Numbered) :
    ∀ {ds : List Description} {s : Scope} {a : Accessor} {m n : Notes} {e : Expr}
      {made : List (List Check)} {env : Environment}, (∀ d ∈ ds, c.Arises d) → s.catalog = c →
      Synthesis.defaultOfFirst make s ds = ⟨m, .value e⟩ → m.OnlyForm →
      Synthesis.checksOfAll check s a ds = ⟨n, .value made⟩ → n.OfferedBy env →
      a.term.eval env = .ok (e.eval properties) →
      ∃ first rest, made = first :: rest ∧ Passes env (Check.statements first)
  | [], s, a, m, n, e, made, env, _, _, he, _, _, _, _ => by
    rw [Synthesis.defaultOfFirst] at he
    exact absurd he Synthesis.fail_ne_value
  | d :: ds, s, a, m, n, e, made, env, hx, hc, he, hform, hchecks, ho, hv => by
    rw [Synthesis.defaultOfFirst] at he
    obtain ⟨j, first, k, rest, hfirst, -, rfl, rfl⟩ := Synthesis.checksOfAll_cons hchecks
    exact ⟨first, rest, rfl, checksWith ha hm hd hn (hx d (by simp)) hc he hform hfirst ho.left hv⟩

end

end Agrees

/-- **The default of a declared type passes its checks**, however many members either may pass
    through. -/
theorem agrees_ofType (hd : c.DistinctMembers) (hn : ∀ {t}, c.Occurs t → t.Numbered) :
    ∀ bound bound' : Nat,
      Agrees c properties (Synthesis.defaultOfType bound) (Synthesis.checksOfType bound') := by
  intro bound
  induction bound with
  | zero =>
    intro bound' s a t m n e checks env _ _ he
    exact absurd he Synthesis.endless_ne_value
  | succ bound ih =>
    intro bound' s a t m n e checks env hc ht he hform hchecks ho hv
    cases bound' with
    | zero => exact absurd hchecks Synthesis.endless_ne_value
    | succ bound' =>
      obtain ⟨d, hdesc, hmade⟩ := Synthesis.defaultOfType_succ he
      obtain ⟨d', hdesc', hmade'⟩ := Synthesis.checksOfType_succ hchecks
      obtain rfl : d = d' := Except.ok.inj (hdesc.symm.trans hdesc')
      rw [hc] at hdesc
      exact Agrees.checksWith (ih bound') Synthesis.isMalformed_of_defaultOfType hd hn
        (Catalog.arises_of_describe ht hdesc) hc hmade hform hmade' ho hv

end InterfaceGuards
