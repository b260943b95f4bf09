/-
  Opening checks: what the parts of a type were checked with when the whole has checks.

  * `memberChecks_eq_value`: the checks of a member, and what is noted, case by case.
  * `objectChecksWith_eq_value`, `checksWith_array`, `checksWith_union`: the checks of what has
    parts.
  * `checksOfType_succ`: the checks of a declared type are those of what it is described as.
  * `membersChecks_eq_error`, `checksOfAll_eq_error`: what the checks of the whole fail for.
-/
import InterfaceGuards.Proofs.Synthesis.Outcome
import InterfaceGuards.Synthesis.Guard

namespace InterfaceGuards.Synthesis

open Script (Accessor Check)

variable {inner : Scope → Accessor → TypeExpr → Synthesis (List Check)} {s : Scope} {a : Accessor}
  {n : Notes} {checks : List Check}

/-- The checks of a member: none and a warning if it is no property, otherwise those of its type,
    which an optional member has to pass only when it is there. -/
theorem memberChecks_eq_value {m : Member} (h : memberChecks inner s a m = ⟨n, .value checks⟩) :
    (∃ e, m.property? = .error e ∧ checks = [] ∧
        n = ⟨[], [(s.within m.displayName).skipped "validator" e]⟩) ∨
      ∃ name t made, m.property? = .ok (name, t) ∧
        inner (s.within name) (a.property name) t = ⟨n, .value made⟩ ∧
        checks = if m.optional then [.whenPresent (a.property name) made] else made := by
  unfold memberChecks at h
  cases hp : m.property? with
  | error e =>
    rw [hp] at h
    obtain ⟨_, hwarn, rfl⟩ := bind_pure_eq_value.1 h
    exact .inl ⟨e, rfl, rfl, warn_eq_value.1 hwarn⟩
  | ok named =>
    obtain ⟨name, t⟩ := named
    rw [hp] at h
    obtain ⟨made, hmade, rfl⟩ := bind_pure_eq_value.1 h
    exact .inr ⟨name, t, made, rfl, hmade, rfl⟩

theorem membersChecks_cons {m : Member} {ms : List Member}
    (h : membersChecks inner s a (m :: ms) = ⟨n, .value checks⟩) :
    ∃ j first k more, memberChecks inner s a m = ⟨j, .value first⟩ ∧
      membersChecks inner s a ms = ⟨k, .value more⟩ ∧ checks = first ++ more ∧ n = j ++ k := by
  obtain ⟨j, first, k, hfirst, hrest, rfl⟩ := bind_eq_value.1 h
  obtain ⟨more, hmore, rfl⟩ := bind_pure_eq_value.1 hrest
  exact ⟨j, first, k, more, hfirst, hmore, rfl, rfl⟩

/-- An object is told by a helper, and then checked member by member. -/
theorem objectChecksWith_eq_value {ms : List Member}
    (h : objectChecksWith inner s a ms = ⟨n, .value checks⟩) :
    ∃ k made, membersChecks inner s a ms = ⟨k, .value made⟩ ∧ checks = .isObject a :: made ∧
      n = ⟨[.isUnknownObject], []⟩ ++ k := by
  obtain ⟨j, _, k, hreq, hrest, rfl⟩ := bind_eq_value.1 h
  obtain rfl := require_eq_value.1 hreq
  obtain ⟨made, hmade, rfl⟩ := bind_pure_eq_value.1 hrest
  exact ⟨k, made, hmade, rfl, rfl⟩

/-- The elements of an array are checked by a helper, with the checks of what it is an array of. -/
theorem checksWith_array {d : Description}
    (h : checksWith inner s a (.array d) = ⟨n, .value checks⟩) :
    ∃ k made, checksWith inner s .value d = ⟨k, .value made⟩ ∧ checks = [.everyElement a made] ∧
      n = ⟨[.validateVector], []⟩ ++ k := by
  rw [checksWith] at h
  obtain ⟨j, _, k, hreq, hrest, rfl⟩ := bind_eq_value.1 h
  obtain rfl := require_eq_value.1 hreq
  obtain ⟨made, hmade, rfl⟩ := bind_pure_eq_value.1 hrest
  exact ⟨k, made, hmade, rfl, rfl⟩

theorem checksWith_union {ds : List Description}
    (h : checksWith inner s a (.union ds) = ⟨n, .value checks⟩) :
    ∃ made, checksOfAll inner s a ds = ⟨n, .value made⟩ ∧ checks = [.someAlternative made] := by
  rw [checksWith] at h
  split_ifs at h with hempty
  · exact absurd h fail_ne_value
  · obtain ⟨made, hmade, rfl⟩ := bind_pure_eq_value.1 h
    exact ⟨made, hmade, rfl⟩

theorem checksOfAll_cons {d : Description} {ds : List Description} {made : List (List Check)}
    (h : checksOfAll inner s a (d :: ds) = ⟨n, .value made⟩) :
    ∃ j first k more, checksWith inner s a d = ⟨j, .value first⟩ ∧
      checksOfAll inner s a ds = ⟨k, .value more⟩ ∧ made = first :: more ∧ n = j ++ k := by
  rw [checksOfAll] at h
  obtain ⟨j, first, k, hfirst, hrest, rfl⟩ := bind_eq_value.1 h
  obtain ⟨more, hmore, rfl⟩ := bind_pure_eq_value.1 hrest
  exact ⟨j, first, k, more, hfirst, hmore, rfl, rfl⟩

theorem checksOfType_succ {bound : Nat} {t : TypeExpr}
    (h : checksOfType (bound + 1) s a t = ⟨n, .value checks⟩) :
    ∃ d, s.catalog.describe t = .ok d ∧
      checksWith (checksOfType bound) s a d = ⟨n, .value checks⟩ := by
  rw [checksOfType] at h
  obtain ⟨j, d, k, hof, hmade, rfl⟩ := bind_eq_value.1 h
  obtain ⟨rfl, hd⟩ := ofDescribed_eq_value.1 hof
  exact ⟨d, hd, by rw [Notes.empty_append, hmade]⟩

/-! ## Errors -/

variable {e : SynthesisError}

/-- The checks of a member fail only for those of its type. -/
theorem memberChecks_eq_error {m : Member} (h : memberChecks inner s a m = ⟨n, .error e⟩) :
    ∃ name t, m.property? = .ok (name, t) ∧
      inner (s.within name) (a.property name) t = ⟨n, .error e⟩ := by
  unfold memberChecks at h
  cases hp : m.property? with
  | error e' =>
    rw [hp] at h
    cases h
  | ok named =>
    obtain ⟨name, t⟩ := named
    rw [hp] at h
    exact ⟨name, t, rfl, bind_pure_eq_error h⟩

/-- The checks of several members fail for those of one of them. -/
theorem membersChecks_eq_error : ∀ {ms : List Member} {n : Notes},
    membersChecks inner s a ms = ⟨n, .error e⟩ →
      ∃ m ∈ ms, ∃ name t k, m.property? = .ok (name, t) ∧
        inner (s.within name) (a.property name) t = ⟨k, .error e⟩
  | [], _, h => by cases h
  | m :: ms, _, h => by
    rcases bind_eq_error h with h | ⟨_, _, _, -, h⟩
    · obtain ⟨name, t, hp, hinner⟩ := memberChecks_eq_error h
      exact ⟨m, List.mem_cons_self, name, t, _, hp, hinner⟩
    · obtain ⟨m', hm', hfailed⟩ := membersChecks_eq_error (bind_pure_eq_error h)
      exact ⟨m', List.mem_cons_of_mem _ hm', hfailed⟩

theorem objectChecksWith_eq_error {ms : List Member}
    (h : objectChecksWith inner s a ms = ⟨n, .error e⟩) :
    ∃ k, membersChecks inner s a ms = ⟨k, .error e⟩ := by
  obtain ⟨k, h⟩ := require_bind_eq_error h
  exact ⟨k, bind_pure_eq_error h⟩

theorem checksWith_array_eq_error {d : Description}
    (h : checksWith inner s a (.array d) = ⟨n, .error e⟩) :
    ∃ k, checksWith inner s .value d = ⟨k, .error e⟩ := by
  rw [checksWith] at h
  obtain ⟨k, h⟩ := require_bind_eq_error h
  exact ⟨k, bind_pure_eq_error h⟩

theorem checksWith_union_eq_error {ds : List Description}
    (h : checksWith inner s a (.union ds) = ⟨n, .error e⟩) :
    ds = [] ∧ e = .unsupported "empty union" ∨ checksOfAll inner s a ds = ⟨n, .error e⟩ := by
  rw [checksWith] at h
  split_ifs at h with hempty
  · cases h
    exact .inl ⟨List.isEmpty_iff.1 hempty, rfl⟩
  · exact .inr (bind_pure_eq_error h)

/-- The checks of several descriptions fail for those of one of them. -/
theorem checksOfAll_eq_error : ∀ {ds : List Description} {n : Notes},
    checksOfAll inner s a ds = ⟨n, .error e⟩ → ∃ d ∈ ds, ∃ k, checksWith inner s a d = ⟨k, .error e⟩
  | [], _, h => by
    rw [checksOfAll] at h
    cases h
  | d :: ds, _, h => by
    rw [checksOfAll] at h
    rcases bind_eq_error h with h | ⟨_, _, _, -, h⟩
    · exact ⟨d, List.mem_cons_self, _, h⟩
    · obtain ⟨d', hd', hfailed⟩ := checksOfAll_eq_error (bind_pure_eq_error h)
      exact ⟨d', List.mem_cons_of_mem _ hd', hfailed⟩

end InterfaceGuards.Synthesis
