/-
  When syntheses end.

  * `Synthesis.EndlessDefault`, `Synthesis.EndlessChecks`: what is made for an expansion has no end.
  * `Scope.recordOf_endless_iff`: a record has no end exactly if its members loop.
  * `Scope.objectChecksOf_ne_endless`, `ends_of_objectChecksOf`: checks end if the members do, and
    there are checks only if they do.
-/
import InterfaceGuards.Proofs.Factory.Default
import InterfaceGuards.Proofs.Guard.Steps
import InterfaceGuards.Proofs.Synthesis.Expansion

namespace InterfaceGuards

open Relation (ReflTransGen TransGen)
open Script (Accessor Check Expr)
open Expansion (Calls Ends Loops Fits Settles Descends)

namespace Synthesis

variable {s : Scope} {n : Notes}

theorem bind_pure_endless_iff {α β : Type} {x : Synthesis α} {f : α → β} :
    (x >>= fun a => pure (f a)).outcome = .endless ↔ x.outcome = .endless := by
  rw [bind_eq_endless]
  exact ⟨fun h => h.resolve_right (by rintro ⟨_, -, h⟩; cases h), .inl⟩

theorem ofDescribed_bind_endless_iff {α β : Type} {x : Except ResolveError α}
    {f : α → Synthesis β} : (ofDescribed x >>= f).outcome = .endless ↔
      ∃ a, x = .ok a ∧ (f a).outcome = .endless := by
  cases x with
  | error e => exact ⟨nofun, nofun⟩
  | ok a => simp [ofDescribed_ok_bind]

/-! ## Defaults -/

/-- What a record or a default needs has no end, `inner` making the defaults of types. -/
def EndlessDefault (inner : Scope → TypeExpr → Synthesis Expr) (x : Expansion) : Prop :=
  match x.task with
  | .members ms => (entriesOf inner x.scope ms).outcome = .endless
  | .type t => (inner x.scope t).outcome = .endless
  | .description d => (defaultWith inner x.scope d).outcome = .endless

section
variable {inner : Scope → TypeExpr → Synthesis Expr}

theorem entryOf_endless_iff {m : Member} : (entryOf inner s m).outcome = .endless ↔
    ∃ name t, m.property? = .ok (name, t) ∧ (inner (s.within name) t).outcome = .endless := by
  unfold entryOf
  cases m.property? with
  | error e => exact ⟨nofun, nofun⟩
  | ok named =>
    obtain ⟨name, t⟩ := named
    rw [bind_eq_endless, attempt_eq_endless]
    refine ⟨?_, ?_⟩
    · rintro (h | ⟨result, -, h⟩)
      · exact ⟨name, t, rfl, h⟩
      · cases result with
        | ok e => cases h
        | error e => dsimp only at h; split_ifs at h <;> cases h
    · rintro ⟨name', t', hp, h⟩
      cases hp
      exact .inl h

theorem entriesOf_endless_iff : ∀ {ms : List Member}, (entriesOf inner s ms).outcome = .endless ↔
    ∃ m ∈ ms, (entryOf inner s m).outcome = .endless
  | [] => ⟨nofun, nofun⟩
  | m :: ms => by
    rw [entriesOf, bind_eq_endless, List.exists_mem_cons_iff, ← @entriesOf_endless_iff ms]
    refine or_congr_right' fun hm => ?_
    -- The first entry is made, whatever it is, and the others are made after it.
    obtain ⟨entry, hentry⟩ : ∃ entry, (entryOf inner s m).outcome = .value entry := by
      cases ho : (entryOf inner s m).outcome with
      | value entry => exact ⟨entry, rfl⟩
      | error e => exact absurd (eq_of_outcome ho) entryOf_ne_error
      | endless => exact absurd ho hm
    simp only [hentry, Outcome.value.injEq, exists_eq_left', bind_pure_endless_iff]

theorem recordWith_endless_iff {ms : List Member} {spread cast : Option String} :
    (recordWith inner s ms spread cast).outcome = .endless ↔
      (entriesOf inner s ms).outcome = .endless :=
  bind_pure_endless_iff

/-- **A record or a default has no end only because one that it calls for has none.** -/
theorem call_of_entriesOf {ms : List Member} (h : (entriesOf inner s ms).outcome = .endless) :
    ∃ y, Calls .factory ⟨s, .members ms⟩ y ∧ EndlessDefault inner y := by
  obtain ⟨m, hm, h⟩ := entriesOf_endless_iff.1 h
  obtain ⟨name, t, hp, h⟩ := entryOf_endless_iff.1 h
  exact ⟨⟨s.within name, .type t⟩, .member hm hp, h⟩

theorem call_of_defaultWith {d : Description} (h : (defaultWith inner s d).outcome = .endless) :
    ∃ y, Calls .factory ⟨s, .description d⟩ y ∧ EndlessDefault inner y := by
  cases d with
  | classLike name ms =>
    rw [defaultWith] at h
    split_ifs at h with hdate hexp hempty
    · cases h
    · cases h
    · cases h
    · refine ⟨_, .classLike hdate hexp fun _ => ?_, recordWith_endless_iff.1 h⟩
      simpa using hempty
  | «alias» name target =>
    rw [defaultWith] at h
    split_ifs at h with hexp
    · cases h
    · exact ⟨_, .named hexp, h⟩
  | object ms =>
    rw [defaultWith] at h
    exact ⟨_, .object, recordWith_endless_iff.1 h⟩
  | union ds =>
    rw [defaultWith] at h
    cases ds with
    | nil => rw [defaultOfFirst] at h; cases h
    | cons d ds =>
      rw [defaultOfFirst] at h
      exact ⟨_, .first, h⟩
  | array | literal | primitive | reference | unsupported => rw [defaultWith] at h; cases h

/-- **No call of a record or a default is without end if the whole has one**: errors are recovered
    from, so that every member is looked at. -/
theorem endless_of_member {ms : List Member} {y : Expansion}
    (hy : Calls .factory ⟨s, .members ms⟩ y) (h : EndlessDefault inner y) :
    (entriesOf inner s ms).outcome = .endless := by
  cases hy with
  | member hm hp =>
    exact entriesOf_endless_iff.2 ⟨_, hm, entryOf_endless_iff.2 ⟨_, _, hp, h⟩⟩

theorem endless_of_described {d : Description} {y : Expansion}
    (hy : Calls .factory ⟨s, .description d⟩ y) (h : EndlessDefault inner y) :
    (defaultWith inner s d).outcome = .endless := by
  cases hy with
  | classLike hdate hexp hms =>
    rw [defaultWith, if_neg hdate, if_neg hexp, if_neg (by simpa using hms rfl)]
    exact recordWith_endless_iff.2 h
  | named hexp =>
    rw [defaultWith, if_neg hexp]
    exact h
  | object =>
    rw [defaultWith]
    exact recordWith_endless_iff.2 h
  | first =>
    rw [defaultWith, defaultOfFirst]
    exact h

end

theorem settles_defaults :
    Settles .factory fun bound x => ¬ EndlessDefault (defaultOfType bound) x where
  members h hend := by
    obtain ⟨y, hy, hend⟩ := call_of_entriesOf hend
    exact h y hy hend
  type := by
    intro bound s t h hend
    obtain ⟨d, hd, hend⟩ := ofDescribed_bind_endless_iff.1 hend
    exact h _ (.described hd) hend
  description h hend := by
    obtain ⟨y, hy, hend⟩ := call_of_defaultWith hend
    exact h y hy hend

theorem descends_defaults :
    Descends .factory fun bound x => ¬ EndlessDefault (defaultOfType bound) x where
  members h hy hend := h (endless_of_member hy hend)
  type := by
    intro bound s t y h hy hend
    cases hy with
    | described hd => exact h (ofDescribed_bind_endless_iff.2 ⟨_, hd, hend⟩)
  description h hy hend := h (endless_of_described hy hend)
  zero h := h rfl

/-! ## Checks -/

/-- Checks of what an expansion is for have no end, `inner` making the checks of types. -/
def EndlessChecks (inner : Scope → Accessor → TypeExpr → Synthesis (List Check)) (a : Accessor)
    (x : Expansion) : Prop :=
  match x.task with
  | .members ms => (membersChecks inner x.scope a ms).outcome = .endless
  | .type t => (inner x.scope a t).outcome = .endless
  | .description d => (checksWith inner x.scope a d).outcome = .endless

/-- There are checks of what an expansion is for. -/
def HasChecks (inner : Scope → Accessor → TypeExpr → Synthesis (List Check)) (a : Accessor)
    (x : Expansion) : Prop :=
  match x.task with
  | .members ms => ∃ n checks, membersChecks inner x.scope a ms = ⟨n, .value checks⟩
  | .type t => ∃ n checks, inner x.scope a t = ⟨n, .value checks⟩
  | .description d => ∃ n checks, checksWith inner x.scope a d = ⟨n, .value checks⟩

section
variable {inner : Scope → Accessor → TypeExpr → Synthesis (List Check)} {a : Accessor}

theorem call_of_membersChecks : ∀ {ms : List Member},
    (membersChecks inner s a ms).outcome = .endless →
      ∃ y a', Calls .guard ⟨s, .members ms⟩ y ∧ EndlessChecks inner a' y
  | [], h => by cases h
  | m :: ms, h => by
    rw [membersChecks, bind_eq_endless] at h
    rcases h with h | ⟨_, -, h⟩
    · unfold memberChecks at h
      cases hp : m.property? with
      | error e => rw [hp] at h; cases h
      | ok named =>
        obtain ⟨name, t⟩ := named
        rw [hp] at h
        exact ⟨_, _, .member (List.mem_cons_self ..) hp, bind_pure_endless_iff.1 h⟩
    · obtain ⟨y, a', hy, h⟩ := call_of_membersChecks (bind_pure_endless_iff.1 h)
      cases hy with
      | member hm hp => exact ⟨_, a', .member (List.mem_cons_of_mem _ hm) hp, h⟩

theorem objectChecksWith_endless_iff {ms : List Member} :
    (objectChecksWith inner s a ms).outcome = .endless ↔
      (membersChecks inner s a ms).outcome = .endless := by
  rw [objectChecksWith, bind_eq_endless]
  simp only [bind_pure_endless_iff]
  constructor
  · rintro (h | ⟨_, -, h⟩)
    · cases h
    · exact h
  · exact fun h => .inr ⟨(), rfl, h⟩

theorem exists_of_checksOfAll : ∀ {ds : List Description},
    (checksOfAll inner s a ds).outcome = .endless →
      ∃ d ∈ ds, (checksWith inner s a d).outcome = .endless
  | [], h => by rw [checksOfAll] at h; cases h
  | d :: ds, h => by
    rw [checksOfAll, bind_eq_endless] at h
    rcases h with h | ⟨_, -, h⟩
    · exact ⟨d, List.mem_cons_self .., h⟩
    · obtain ⟨e, he, h⟩ := exists_of_checksOfAll (bind_pure_endless_iff.1 h)
      exact ⟨e, List.mem_cons_of_mem _ he, h⟩

theorem call_of_checksWith {d : Description} (h : (checksWith inner s a d).outcome = .endless) :
    ∃ y a', Calls .guard ⟨s, .description d⟩ y ∧ EndlessChecks inner a' y := by
  cases d with
  | classLike name ms =>
    rw [checksWith] at h
    split_ifs at h with hdate hexp hgen
    · cases h
    · cases h
    · cases h
    · exact ⟨_, a, .classLike hdate hexp nofun, objectChecksWith_endless_iff.1 h⟩
  | «alias» name target =>
    rw [checksWith] at h
    split_ifs at h with hexp
    · cases h
    · exact ⟨_, a, .named hexp, h⟩
  | object ms =>
    rw [checksWith] at h
    exact ⟨_, a, .object, objectChecksWith_endless_iff.1 h⟩
  | array d =>
    rw [checksWith, bind_eq_endless] at h
    rcases h with h | ⟨_, -, h⟩
    · cases h
    · exact ⟨⟨s, .description d⟩, .value, .element, bind_pure_endless_iff.1 h⟩
  | union ds =>
    rw [checksWith] at h
    split_ifs at h
    · cases h
    · obtain ⟨d, hd, h⟩ := exists_of_checksOfAll (bind_pure_endless_iff.1 h)
      exact ⟨⟨s, .description d⟩, a, .alternative hd, h⟩
  | literal | primitive | reference | unsupported => rw [checksWith] at h; cases h

theorem hasChecks_of_members : ∀ {ms : List Member} {n : Notes} {checks : List Check} {y : Expansion},
    membersChecks inner s a ms = ⟨n, .value checks⟩ → Calls .guard ⟨s, .members ms⟩ y →
      ∃ a', HasChecks inner a' y
  | [], _, _, _, _, hy => by
    cases hy with
    | member hm => cases hm
  | m :: ms, _, _, _, h, hy => by
    obtain ⟨j, first, k, more, hfirst, hmore, -, -⟩ := membersChecks_cons h
    cases hy with
    | member hm hp =>
      rcases List.mem_cons.1 hm with rfl | hm
      · rcases memberChecks_eq_value hfirst with ⟨e, he, -⟩ | ⟨name, t, made, hp', hmade, -⟩
        · simp [hp] at he
        · rw [hp] at hp'
          cases hp'
          exact ⟨_, _, _, hmade⟩
      · exact hasChecks_of_members hmore (.member hm hp)

theorem hasChecks_of_checksOfAll : ∀ {ds : List Description} {n : Notes}
    {made : List (List Check)}, checksOfAll inner s a ds = ⟨n, .value made⟩ →
      ∀ d ∈ ds, ∃ k checks, checksWith inner s a d = ⟨k, .value checks⟩
  | d :: ds, _, _, h, e, he => by
    obtain ⟨j, first, k, more, hfirst, hmore, -, -⟩ := checksOfAll_cons h
    rcases List.mem_cons.1 he with rfl | he
    · exact ⟨j, first, hfirst⟩
    · exact hasChecks_of_checksOfAll hmore e he

theorem hasChecks_of_description {d : Description} {checks : List Check} {y : Expansion}
    (h : checksWith inner s a d = ⟨n, .value checks⟩)
    (hy : Calls .guard ⟨s, .description d⟩ y) : ∃ a', HasChecks inner a' y := by
  cases hy with
  | classLike hdate hexp hms =>
    rw [checksWith, if_neg hdate, if_neg hexp] at h
    obtain ⟨k, made, hmade, -, -⟩ := objectChecksWith_eq_value h
    exact ⟨a, k, made, hmade⟩
  | named hexp =>
    rw [checksWith, if_neg hexp] at h
    exact ⟨a, n, checks, h⟩
  | object =>
    rw [checksWith] at h
    obtain ⟨k, made, hmade, -, -⟩ := objectChecksWith_eq_value h
    exact ⟨a, k, made, hmade⟩
  | element =>
    obtain ⟨k, made, hmade, -, -⟩ := checksWith_array h
    exact ⟨.value, k, made, hmade⟩
  | alternative hd =>
    obtain ⟨made, hmade, -⟩ := checksWith_union h
    exact ⟨a, hasChecks_of_checksOfAll hmade _ hd⟩

end

theorem settles_checks :
    Settles .guard fun bound x => ∀ a, ¬ EndlessChecks (checksOfType bound) a x where
  members h a hend := by
    obtain ⟨y, a', hy, hend⟩ := call_of_membersChecks hend
    exact h y hy a' hend
  type := by
    intro bound s t h a hend
    obtain ⟨d, hd, hend⟩ := ofDescribed_bind_endless_iff.1 hend
    exact h _ (.described hd) a hend
  description h a hend := by
    obtain ⟨y, a', hy, hend⟩ := call_of_checksWith hend
    exact h y hy a' hend

theorem descends_checks :
    Descends .guard fun bound x => ∃ a, HasChecks (checksOfType bound) a x where
  members := by
    rintro bound s ms y ⟨a, n, checks, h⟩ hy
    exact hasChecks_of_members h hy
  type := by
    rintro bound s t y ⟨a, n, checks, h⟩ hy
    obtain ⟨d, hd, h⟩ := checksOfType_succ h
    cases hy with
    | described hd' =>
      rw [hd] at hd'
      cases hd'
      exact ⟨a, n, checks, h⟩
  description := by
    rintro bound s d y ⟨a, n, checks, h⟩ hy
    exact hasChecks_of_description h hy
  zero := by
    rintro s t ⟨a, n, checks, h⟩
    exact endless_ne_value h

end Synthesis

/-! ## Members -/

namespace Scope

variable {s : Scope} {ms : List Member} {spread cast : Option String} {p : Purpose} {a : Accessor}

/-- The types that may be met below members: those in declarations and those of the members. -/
def typesBelow (s : Scope) (ms : List Member) : List TypeExpr :=
  s.catalog.parts ++ TypeExpr.partsOfMembers ms

theorem closed_typesBelow (s : Scope) (ms : List Member) :
    s.catalog.Closed (· ∈ s.typesBelow ms) := by
  refine Catalog.closed_of_parts (List.subset_append_left ..) fun {t u} hu ht => ?_
  rcases List.mem_append.1 hu with hu | hu
  · exact List.mem_append_left _ (Catalog.mem_parts_of_mem hu ht)
  · exact List.mem_append_right _ (TypeExpr.partsOfMembers_subset hu ht)

theorem fits_members (s : Scope) (ms : List Member) :
    Fits s (s.typesBelow ms) ⟨s, .members ms⟩ :=
  ⟨.refl s, fun _ hm t ht =>
    List.mem_append_right _ (TypeExpr.mem_partsOfMembers hm ht t.mem_parts_self)⟩

/-- The bound on expansions allows for all types that may be met, once for each name that may be
    expanded. -/
theorem length_typesBelow_le (s : Scope) (ms : List Member) :
    (s.catalog.names.length + 1) * (s.typesBelow ms).length ≤
      s.catalog.expansionBound (TypeExpr.sizeOfMembers ms) := by
  have hnames := s.catalog.length_names_le
  have hparts := s.catalog.length_parts_le
  have hmembers := TypeExpr.length_partsOfMembers_le ms
  refine Nat.mul_le_mul (by omega) ?_
  rw [typesBelow, List.length_append]
  omega

theorem members_ends_iff (s : Scope) (ms : List Member) :
    Ends p ⟨s, .members ms⟩ ↔ ¬ Loops p ⟨s, .members ms⟩ :=
  (s.fits_members ms).ends_iff_not_loops (s.closed_typesBelow ms)

/-- **A record has an end exactly if its members have**, whatever scope it is made in: the bound on
    expansions cuts off no record that has one. -/
theorem recordOf_endless_iff :
    (s.recordOf ms spread cast).outcome = .endless ↔ ¬ Ends .factory ⟨s, .members ms⟩ := by
  rw [recordOf, Synthesis.recordWith_endless_iff]
  constructor
  · intro hend hends
    exact Synthesis.settles_defaults.of_not_loops (s.closed_typesBelow ms) (s.fits_members ms)
      (s.length_typesBelow_le ms) hends.not_loops hend
  · intro hends
    by_contra hend
    exact hends (Synthesis.descends_defaults.ends _ ⟨s, .members ms⟩ hend)

/-- A record that has an end is made: whatever default is missing, it is not an error. -/
theorem recordOf_value_iff :
    (∃ e, (s.recordOf ms spread cast).outcome = .value e) ↔ Ends .factory ⟨s, .members ms⟩ := by
  have hend := @recordOf_endless_iff s ms spread cast
  rw [← not_iff_not, ← hend]
  cases ho : (s.recordOf ms spread cast).outcome with
  | value e => simp
  | error e => exact absurd (Synthesis.eq_of_outcome ho) Synthesis.recordWith_ne_error
  | endless => simp

/-- Members that have an end are checked, or it is an error. -/
theorem objectChecksOf_ne_endless (h : Ends .guard ⟨s, .members ms⟩) :
    (s.objectChecksOf a ms).outcome ≠ .endless := by
  rw [objectChecksOf, Ne, Synthesis.objectChecksWith_endless_iff]
  exact Synthesis.settles_checks.of_not_loops (s.closed_typesBelow ms) (s.fits_members ms)
    (s.length_typesBelow_le ms) h.not_loops a

/-- Members that are checked have an end. -/
theorem ends_of_objectChecksOf {n : Notes} {checks : List Check}
    (h : s.objectChecksOf a ms = ⟨n, .value checks⟩) : Ends .guard ⟨s, .members ms⟩ := by
  obtain ⟨k, made, hmade, -, -⟩ := Synthesis.objectChecksWith_eq_value h
  exact Synthesis.descends_checks.ends _ ⟨s, .members ms⟩ ⟨a, k, made, hmade⟩

end Scope

end InterfaceGuards
