/-
  The checks of a type decide whether a value conforms to it.

  * `Catalog.PlainlyNamed`: no name is declared twice, and none means something else already.
  * `Supports`: what the checks of a unit may call does what it is for.
  * `Exact inner`: the checks that `inner` makes for a type decide conformance.
  * `Exact.checksWith`: checks are exact when those of the members are; the induction on the
    number of members passed through is `exact_checksOfType`.
-/
import InterfaceGuards.Proofs.Catalog.Occurrence
import InterfaceGuards.Proofs.Guard.Conformance
import InterfaceGuards.Proofs.Guard.Steps
import InterfaceGuards.Proofs.Script.Verdict
import Mathlib.Data.List.Nodup

namespace InterfaceGuards

open Script (Accessor Answers Check Decides Environment Value)

/-! ## Names -/

/-- No name is declared twice, and none is called like what guards know by name: the built-in class
    of dates and the helper that tells objects. -/
structure Catalog.PlainlyNamed (c : Catalog) : Prop where
  nodup : ((c.units.flatMap (·.declarations)).map (·.name)).Nodup
  ne_date : ∀ {d}, c.Declares d → d.name ≠ Description.dateName
  ne_unknownObject : ∀ {d}, c.Declares d → d.name ≠ "UnknownObject"

theorem Catalog.PlainlyNamed.eq_of_name {c : Catalog} (h : c.PlainlyNamed) {d e : Declaration}
    (hd : c.Declares d) (he : c.Declares e) (hn : d.name = e.name) : d = e := by
  refine List.inj_on_of_nodup_map h.nodup ?_ ?_ hn
  · simpa [Catalog.Declares, List.mem_flatMap] using hd
  · simpa [Catalog.Declares, List.mem_flatMap] using he

/-! ## What checks rely on -/

/-- The helpers noted do what they are for. -/
def Notes.OfferedBy (n : Notes) (env : Environment) : Prop := ∀ h ∈ n.helpers, env.Offers h

theorem Notes.OfferedBy.left {m n : Notes} {env : Environment} (h : (m ++ n).OfferedBy env) :
    m.OfferedBy env := fun f hf => h f (by simp [helpers_append, hf])

theorem Notes.OfferedBy.right {m n : Notes} {env : Environment} (h : (m ++ n).OfferedBy env) :
    n.OfferedBy env := fun f hf => h f (by simp [helpers_append, hf])

/-- The helpers noted do what they are for, and the guards of the unit tell, for values smaller
    than `limit`, whether a value has the members of the interface. -/
structure Supports (env : Environment) (c : Catalog) (u : SourceUnit) (limit : Nat) (n : Notes) :
    Prop where
  helpers : n.OfferedBy env
  guards : ∀ i ∈ u.interfaces, ∀ w : Value, w.size < limit →
    Answers (env.call (Script.guardName i.name) w none) (c.HasMembers w i.members)

namespace Supports

variable {env : Environment} {c : Catalog} {u : SourceUnit} {limit : Nat} {m n : Notes}

theorem left (h : Supports env c u limit (m ++ n)) : Supports env c u limit m :=
  ⟨h.helpers.left, h.guards⟩

theorem right (h : Supports env c u limit (m ++ n)) : Supports env c u limit n :=
  ⟨h.helpers.right, h.guards⟩

/-- Functions stay what they are when a variable is set. -/
theorem bind (h : Supports env c u limit n) (name : String) (v : Value) :
    Supports (env.bind name v) c u limit n := by
  refine ⟨fun f hf => ?_, h.guards⟩
  have := h.helpers f hf
  cases f <;> exact this

end Supports

/-- The checks that `inner` makes for a type of the catalog, in a scope of the unit, decide
    whether a value smaller than `limit` conforms to what the type is described as. -/
def Exact (c : Catalog) (u : SourceUnit) (limit : Nat)
    (inner : Scope → Accessor → TypeExpr → Synthesis (List Check)) : Prop :=
  ∀ {s : Scope} {a : Accessor} {t : TypeExpr} {n : Notes} {checks : List Check}
    {env : Environment} {v : Value}, s.catalog = c → s.unit = u → c.Occurs t →
    inner s a t = ⟨n, .value checks⟩ → Supports env c u limit n → a.term.eval env = .ok v →
    v.size < limit →
    ∃ d, c.describe t = .ok d ∧ Decides env (Check.statements checks) (c.Conforms v d)

theorem eval_property {env : Environment} {a : Accessor} {v w : Value} {name : String}
    (hv : a.term.eval env = .ok v) (hw : v.property? name = some w) :
    (a.property name).term.eval env = .ok w := by
  rw [a.term_property, Script.Term.eval, hv]
  simp only [bind, Except.bind, Value.get, Script.Quoted.single, hw]

namespace Exact

variable {c : Catalog} {u : SourceUnit} {limit : Nat}
  {inner : Scope → Accessor → TypeExpr → Synthesis (List Check)}
  {s : Scope} {a : Accessor} {n : Notes} {env : Environment} {v : Value}

/-! ## Members -/

/-- The checks of a member decide whether an object has what the member asks for. -/
theorem memberChecks (hi : Exact c u limit inner) (hc : s.catalog = c) (hu : s.unit = u)
    {m : Member} (hm : ∀ t, m.type = some t → c.Occurs t) {checks : List Check}
    (h : Synthesis.memberChecks inner s a m = ⟨n, .value checks⟩) (hs : Supports env c u limit n)
    (hv : a.term.eval env = .ok v) (ho : v.isObject) (hl : v.size ≤ limit) :
    Decides env (Check.statements checks) (c.HasMember v m) := by
  rcases Synthesis.memberChecks_eq_value h with ⟨e, hp, rfl, -⟩ | ⟨name, t, made, hp, hmade, rfl⟩
  · exact Decides.nil.congr (by simp [Catalog.HasMember.malformed hp])
  · obtain ⟨w, hw⟩ := Value.property?_isSome ho name
    have hr := eval_property hv hw
    have hsize := Value.size_property? hw
    obtain ⟨d, hd, hdec⟩ := hi (s := s.within name) hc hu (hm t (m.type_of_property? hp)) hmade
      hs hr (by omega)
    rw [Catalog.hasMember_iff hp hw hd]
    split_ifs with hopt
    · exact (Script.decides_whenPresent hr hdec).congr (by simp [hopt])
    · exact hdec.congr (by simp [hopt])

theorem membersChecks (hi : Exact c u limit inner) (hc : s.catalog = c) (hu : s.unit = u)
    (hv : a.term.eval env = .ok v) (ho : v.isObject) (hl : v.size ≤ limit) :
    ∀ {ms : List Member} {n : Notes} {checks : List Check},
      (∀ m ∈ ms, ∀ t, m.type = some t → c.Occurs t) →
      Synthesis.membersChecks inner s a ms = ⟨n, .value checks⟩ → Supports env c u limit n →
      Decides env (Check.statements checks) (∀ m ∈ ms, c.HasMember v m)
  | [], n, checks, _, h, _ => by
    obtain ⟨-, rfl⟩ := Synthesis.pure_eq_value.1 h
    exact Decides.nil.congr (by simp)
  | m :: ms, n, checks, hms, h, hs => by
    obtain ⟨j, first, k, more, hfirst, hmore, rfl, rfl⟩ := Synthesis.membersChecks_cons h
    rw [Check.statements_append]
    refine (Decides.append ?_ fun _ => ?_).congr List.forall_mem_cons.symm
    · exact hi.memberChecks hc hu (hms m (by simp)) hfirst hs.left hv ho hl
    · exact hi.membersChecks hc hu hv ho hl (fun m' hm' => hms m' (by simp [hm'])) hmore
        hs.right

/-- **The checks of an object decide whether a value is an object with the members.**  The value
    itself may be as large as the limit: its properties are smaller. -/
theorem objectChecksWith (hi : Exact c u limit inner) (hc : s.catalog = c) (hu : s.unit = u)
    {ms : List Member} (hms : ∀ m ∈ ms, ∀ t, m.type = some t → c.Occurs t) {checks : List Check}
    (h : Synthesis.objectChecksWith inner s a ms = ⟨n, .value checks⟩)
    (hs : Supports env c u limit n) (hv : a.term.eval env = .ok v) (hl : v.size ≤ limit) :
    Decides env (Check.statements checks) (c.HasMembers v ms) := by
  obtain ⟨k, made, hmade, rfl, rfl⟩ := Synthesis.objectChecksWith_eq_value h
  have offers := hs.left.helpers .isUnknownObject (by simp)
  exact (Script.decides_isObject offers hv).append fun ho =>
    hi.membersChecks hc hu hv ho hl hms hmade hs.right

/-! ## Descriptions -/

section
variable (hi : Exact c u limit inner) (hp : c.PlainlyNamed) (hmem : u ∈ c.units)
include hi hp hmem

/-- A class or interface is checked member by member, or by its guard when its members are being
    expanded already.  The guard is that of the very declaration, for no other has its name. -/
theorem classLike (hc : s.catalog = c) (hu : s.unit = u) {d : Declaration} (hd : c.Declares d)
    {checks : List Check}
    (h : Synthesis.checksWith inner s a (.classLike d.name d.members) = ⟨n, .value checks⟩)
    (hs : Supports env c u limit n) (hv : a.term.eval env = .ok v) (hl : v.size < limit) :
    Decides env (Check.statements checks) (c.Conforms v (.classLike d.name d.members)) := by
  rw [Catalog.conforms_classLike_iff (hp.ne_date hd)]
  rw [Synthesis.checksWith, if_neg (hp.ne_date hd)] at h
  split_ifs at h with hexp hgen
  · obtain ⟨-, rfl⟩ := Synthesis.pure_eq_value.1 h
    obtain ⟨i, hmi, hname⟩ := List.any_eq_true.1 hgen
    rw [hu] at hmi
    have hname : i.name = d.name := by simpa using hname
    have hdecl : c.Declares i := ⟨u, hmem, (List.mem_filter.1 hmi).1⟩
    obtain rfl := hp.eq_of_name hdecl hd hname
    exact Script.decides_call hv (hs.guards i hmi v hl)
  · exact absurd h Synthesis.fail_ne_value
  · exact hi.objectChecksWith (s := s.expand d.name) hc hu hd.members_occur h hs hv
      (Nat.le_of_lt hl)

end

mutual

/-- **The checks of a description decide whether a value conforms to it.** -/
theorem checksWith (hi : Exact c u limit inner) (hp : c.PlainlyNamed) (hmem : u ∈ c.units) :
    ∀ {d : Description} {s : Scope} {a : Accessor} {n : Notes}
      {checks : List Check} {env : Environment} {v : Value}, c.Arises d → s.catalog = c →
      s.unit = u → Synthesis.checksWith inner s a d = ⟨n, .value checks⟩ →
      Supports env c u limit n → a.term.eval env = .ok v → v.size < limit →
      Decides env (Check.statements checks) (c.Conforms v d)
  | .primitive kind, s, a, n, checks, env, v, _, _, _, h, _, hv, _ => by
    rw [Synthesis.checksWith] at h
    obtain ⟨-, rfl⟩ := Synthesis.pure_eq_value.1 h
    split_ifs with hk
    · rw [hk, Catalog.conforms_null_iff]
      exact Script.decides_isNull hv
    · rw [Catalog.conforms_primitive_iff hk]
      exact Script.decides_hasKind hv kind
  | .literal x, s, a, n, checks, env, v, _, _, _, h, _, hv, _ => by
    rw [Synthesis.checksWith] at h
    obtain ⟨-, rfl⟩ := Synthesis.pure_eq_value.1 h
    rw [Catalog.conforms_literal_iff]
    exact Script.decides_equals hv x
  | .array e, s, a, n, checks, env, v, ha, hc, hu, h, hs, hv, hl => by
    cases ha with
    | array ha =>
    obtain ⟨k, made, hmade, rfl, rfl⟩ := Synthesis.checksWith_array h
    have offers := hs.left.helpers .validateVector (by simp)
    rw [Catalog.conforms_array_iff]
    refine Script.decides_everyElement offers hv fun es hes w hw => ?_
    have hsize := Value.size_elements? hes hw
    exact checksWith hi hp hmem ha hc hu hmade (hs.right.bind "value" w)
      (Script.eval_value_bind env w) (by omega)
  | .object ms, s, a, n, checks, env, v, ha, hc, hu, h, hs, hv, hl => by
    cases ha with
    | object ho =>
    rw [Synthesis.checksWith] at h
    rw [Catalog.conforms_object_iff]
    exact hi.objectChecksWith hc hu (fun m hm t ht => .property ho hm ht) h hs hv (Nat.le_of_lt hl)
  | .union ds, s, a, n, checks, env, v, ha, hc, hu, h, hs, hv, hl => by
    cases ha with
    | union ha =>
    obtain ⟨made, hmade, rfl⟩ := Synthesis.checksWith_union h
    have hall := checksOfAll hi hp hmem ha hc hu hmade hs hv hl
    refine (Script.decides_someAlternative hall).congr ?_
    rw [Catalog.conforms_union_iff]
    constructor
    · rintro ⟨_, hP, h⟩
      obtain ⟨d, hd, rfl⟩ := List.mem_map.1 hP
      exact ⟨d, hd, h⟩
    · rintro ⟨d, hd, h⟩
      exact ⟨_, List.mem_map_of_mem hd, h⟩
  | .classLike name ms, s, a, n, checks, env, v, ha, hc, hu, h, hs, hv, hl => by
    cases ha with
    | date =>
      rw [Synthesis.checksWith, if_pos rfl] at h
      obtain ⟨-, rfl⟩ := Synthesis.pure_eq_value.1 h
      exact (Script.decides_isDate hv).congr Catalog.conforms_date_iff.symm
    | classLike hd => exact hi.classLike hp hmem hc hu hd h hs hv hl
  | .alias name target, s, a, n, checks, env, v, ha, hc, hu, h, hs, hv, hl => by
    cases ha with
    | named hd hk ho =>
    rw [Synthesis.checksWith] at h
    split_ifs at h with hexp
    · exact absurd h Synthesis.fail_ne_value
    · rw [Catalog.conforms_alias_iff]
      exact checksWith hi hp hmem (s := s.expand _) (.object ho) hc hu h hs hv hl
  | .reference name, s, a, n, checks, env, v, _, _, _, h, _, _, _ => by
    rw [Synthesis.checksWith] at h
    obtain ⟨-, rfl⟩ := Synthesis.pure_eq_value.1 h
    exact Decides.nil.congr (by simp [Catalog.Conforms.reference])
  | .unsupported kind, s, a, n, checks, env, v, _, _, _, h, _, _, _ => by
    rw [Synthesis.checksWith] at h
    exact absurd h Synthesis.fail_ne_value

theorem checksOfAll (hi : Exact c u limit inner) (hp : c.PlainlyNamed) (hmem : u ∈ c.units) :
    ∀ {ds : List Description} {s : Scope} {a : Accessor} {n : Notes}
      {made : List (List Check)} {env : Environment} {v : Value}, (∀ d ∈ ds, c.Arises d) →
      s.catalog = c → s.unit = u → Synthesis.checksOfAll inner s a ds = ⟨n, .value made⟩ →
      Supports env c u limit n → a.term.eval env = .ok v → v.size < limit →
      List.Forall₂ (fun checks P => Decides env (Check.statements checks) P) made
        (ds.map (c.Conforms v))
  | [], s, a, n, made, env, v, _, _, _, h, _, _, _ => by
    rw [Synthesis.checksOfAll] at h
    obtain ⟨-, rfl⟩ := Synthesis.pure_eq_value.1 h
    exact .nil
  | d :: ds, s, a, n, made, env, v, ha, hc, hu, h, hs, hv, hl => by
    obtain ⟨j, first, k, more, hfirst, hmore, rfl, rfl⟩ := Synthesis.checksOfAll_cons h
    exact .cons (checksWith hi hp hmem (ha d (by simp)) hc hu hfirst hs.left hv hl)
      (checksOfAll hi hp hmem (fun e he => ha e (by simp [he])) hc hu hmore hs.right hv hl)

end

end Exact

/-- **The checks of a type decide whether a value conforms to it**, however many members the
    expansion may pass through. -/
theorem exact_checksOfType {c : Catalog} {u : SourceUnit} (hp : c.PlainlyNamed) (hmem : u ∈ c.units)
    (limit : Nat) : ∀ bound : Nat, Exact c u limit (Synthesis.checksOfType bound) := by
  intro bound
  induction bound with
  | zero =>
    intro s a t n checks env v _ _ _ h
    exact absurd h Synthesis.endless_ne_value
  | succ bound ih =>
    intro s a t n checks env v hc hu ht h hs hv hl
    obtain ⟨d, hd, hmade⟩ := Synthesis.checksOfType_succ h
    rw [hc] at hd
    exact ⟨d, hd, ih.checksWith hp hmem (Catalog.arises_of_describe ht hd) hc hu hmade hs hv hl⟩

end InterfaceGuards
