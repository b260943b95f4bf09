/-
  Synthesised code is balanced.

  * `Scope.about_objectChecksOf`: the checks of an object are about what the accessor denotes, and
    call guards of the unit only.
-/
import InterfaceGuards.Proofs.Guard.Steps
import InterfaceGuards.Proofs.Script.Balance

namespace InterfaceGuards

open Script (Accessor Check)

namespace Synthesis

/-! ## Checks -/

/-- What `inner` makes for an accessor is about what it denotes. -/
def Concerned (inner : Scope → Accessor → TypeExpr → Synthesis (List Check)) : Prop :=
  ∀ {s : Scope} {a : Accessor} {t : TypeExpr} {n : Notes} {checks : List Check},
    inner s a t = ⟨n, .value checks⟩ → ∀ check ∈ checks, check.About (s.generates ·) a

variable {inner : Scope → Accessor → TypeExpr → Synthesis (List Check)}

section
variable (hi : Concerned inner) {s : Scope} {a : Accessor}
include hi

theorem about_memberChecks {m : Member} {n : Notes} {checks : List Check}
    (h : memberChecks inner s a m = ⟨n, .value checks⟩) :
    ∀ check ∈ checks, check.About (s.generates ·) a := by
  rcases memberChecks_eq_value h with ⟨e, -, rfl, -⟩ | ⟨name, t, made, -, hmade, rfl⟩
  · nofun
  · have hproperty := hi hmade
    split_ifs
    · refine List.forall_mem_singleton.2 ?_
      exact .property (.whenPresent _ hproperty)
    · exact fun check hcheck => .property (hproperty check hcheck)

theorem about_membersChecks : ∀ {ms : List Member} {n : Notes} {checks : List Check},
    membersChecks inner s a ms = ⟨n, .value checks⟩ →
      ∀ check ∈ checks, check.About (s.generates ·) a
  | [], n, checks, h => by
    obtain ⟨-, rfl⟩ := pure_eq_value.1 h
    nofun
  | m :: ms, n, checks, h => by
    obtain ⟨j, first, k, more, hfirst, hmore, rfl, -⟩ := membersChecks_cons h
    exact List.forall_mem_append.2 ⟨about_memberChecks hi hfirst, about_membersChecks hmore⟩

theorem about_objectChecksWith {ms : List Member} {n : Notes} {checks : List Check}
    (h : objectChecksWith inner s a ms = ⟨n, .value checks⟩) :
    ∀ check ∈ checks, check.About (s.generates ·) a := by
  obtain ⟨k, made, hmade, rfl, -⟩ := objectChecksWith_eq_value h
  exact List.forall_mem_cons.2 ⟨.isObject a, about_membersChecks hi hmade⟩

end

mutual

/-- **The checks of a description** are about what the accessor denotes, and call guards of the
    unit. -/
theorem about_checksWith (hi : Concerned inner) :
    ∀ {d : Description} {s : Scope} {a : Accessor} {n : Notes} {checks : List Check},
      checksWith inner s a d = ⟨n, .value checks⟩ →
        ∀ check ∈ checks, check.About (s.generates ·) a
  | .classLike name ms, s, a, n, checks, h => by
    rw [checksWith] at h
    split_ifs at h with hdate hexp hgen
    · obtain ⟨-, rfl⟩ := pure_eq_value.1 h
      exact List.forall_mem_singleton.2 (.isDate a)
    · obtain ⟨-, rfl⟩ := pure_eq_value.1 h
      exact List.forall_mem_singleton.2 (.passesGuard a hgen)
    · exact absurd h fail_ne_value
    · exact about_objectChecksWith (s := s.expand name) hi h
  | .alias name target, s, a, n, checks, h => by
    rw [checksWith] at h
    split_ifs at h with hexp
    · exact absurd h fail_ne_value
    · exact about_checksWith hi (s := s.expand name) h
  | .object ms, s, a, n, checks, h => by
    rw [checksWith] at h
    exact about_objectChecksWith hi h
  | .array element, s, a, n, checks, h => by
    obtain ⟨k, made, hmade, rfl, -⟩ := checksWith_array h
    exact List.forall_mem_singleton.2 (.everyElement a (about_checksWith hi hmade))
  | .union ds, s, a, n, checks, h => by
    obtain ⟨made, hmade, rfl⟩ := checksWith_union h
    exact List.forall_mem_singleton.2 (.someAlternative (about_checksOfAll hi hmade))
  | .literal value, s, a, n, checks, h => by
    rw [checksWith] at h
    obtain ⟨-, rfl⟩ := pure_eq_value.1 h
    exact List.forall_mem_singleton.2 (.equals a value)
  | .primitive kind, s, a, n, checks, h => by
    rw [checksWith] at h
    obtain ⟨-, rfl⟩ := pure_eq_value.1 h
    split_ifs
    · exact List.forall_mem_singleton.2 (.isNull a)
    · exact List.forall_mem_singleton.2 (.hasKind a kind)
  | .reference name, s, a, n, checks, h => by
    rw [checksWith] at h
    obtain ⟨-, rfl⟩ := pure_eq_value.1 h
    nofun
  | .unsupported kind, s, a, n, checks, h => by
    rw [checksWith] at h
    exact absurd h fail_ne_value

theorem about_checksOfAll (hi : Concerned inner) :
    ∀ {ds : List Description} {s : Scope} {a : Accessor} {n : Notes} {made : List (List Check)},
      checksOfAll inner s a ds = ⟨n, .value made⟩ →
        ∀ checks ∈ made, ∀ check ∈ checks, check.About (s.generates ·) a
  | [], s, a, n, made, h => by
    rw [checksOfAll] at h
    obtain ⟨-, rfl⟩ := pure_eq_value.1 h
    nofun
  | d :: ds, s, a, n, made, h => by
    obtain ⟨j, first, k, more, hfirst, hmore, rfl, -⟩ := checksOfAll_cons h
    exact List.forall_mem_cons.2 ⟨about_checksWith hi hfirst, about_checksOfAll hi hmore⟩

end

/-- The checks of a declared type are about what the accessor denotes, however many members are
    passed through. -/
theorem concerned_checksOfType (bound : Nat) : Concerned (checksOfType bound) := by
  induction bound with
  | zero =>
    intro s a t n checks h
    exact absurd h endless_ne_value
  | succ bound ih =>
    intro s a t n checks h
    obtain ⟨d, -, hmade⟩ := checksOfType_succ h
    exact about_checksWith ih hmade

end Synthesis

namespace Scope

variable {s : Scope} {ms : List Member} {n : Notes}

/-- **The checks of an object** are about what the accessor denotes, and call guards of the unit
    only. -/
theorem about_objectChecksOf {a : Accessor} {checks : List Check}
    (h : s.objectChecksOf a ms = ⟨n, .value checks⟩) :
    ∀ check ∈ checks, check.About (s.generates ·) a :=
  Synthesis.about_objectChecksWith (Synthesis.concerned_checksOfType _) h

end Scope

end InterfaceGuards
