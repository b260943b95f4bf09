/-
  The functions that synthesised code calls.

  * `Scope.Records`: the helpers noted are those that checks call, and the guards that these call
    are guards of the unit.
  * `records_objectChecksOf`: so it is for the checks of an object.
  * `helpers_recordOf`: no helper is noted for a default value.

  A default that cannot be made is recovered from, and what was noted on the way to it stays; checks
  that cannot be made fail as a whole, so that nothing is noted for checks that are dropped.
-/
import InterfaceGuards.Proofs.Guard.Steps
import InterfaceGuards.Proofs.Script.Call
import InterfaceGuards.Synthesis.Default

namespace InterfaceGuards

open Script (Accessor Check Expr)

/-! ## Checks -/

/-- The helpers noted are those that the checks call, in order, and every guard that they call is a
    guard of the unit. -/
structure Scope.Records (s : Scope) (n : Notes) (checks : List Check) : Prop where
  helpers : n.helpers = Check.helpersAll checks
  guards : ∀ type ∈ Check.callsAll checks, s.generates type

namespace Scope.Records

variable {s : Scope} {m n : Notes} {checks more : List Check}

theorem append (h : s.Records m checks) (h' : s.Records n more) :
    s.Records (m ++ n) (checks ++ more) := by
  refine ⟨?_, ?_⟩
  · rw [Notes.helpers_append, Check.helpersAll_append, h.helpers, h'.helpers]
  · intro type ht
    rw [Check.callsAll_append, List.mem_append] at ht
    rcases ht with ht | ht
    · exact h.guards type ht
    · exact h'.guards type ht

/-- A statement that calls nothing. -/
theorem silent {check : Check} (hh : check.helpers = []) (hc : check.calls = []) :
    s.Records .empty [check] := by
  refine ⟨?_, ?_⟩
  · simp [Notes.empty, Check.helpersAll, hh]
  · simp [Check.callsAll, hc]

end Scope.Records

namespace Synthesis

/-- What `inner` makes of a type is recorded. -/
def Recording (inner : Scope → Accessor → TypeExpr → Synthesis (List Check)) : Prop :=
  ∀ {s : Scope} {a : Accessor} {t : TypeExpr} {n : Notes} {checks : List Check},
    inner s a t = ⟨n, .value checks⟩ → s.Records n checks

section
variable {inner : Scope → Accessor → TypeExpr → Synthesis (List Check)} (hi : Recording inner)
  {s : Scope} {a : Accessor}
include hi

theorem records_memberChecks {m : Member} {n : Notes} {checks : List Check}
    (h : memberChecks inner s a m = ⟨n, .value checks⟩) : s.Records n checks := by
  rcases memberChecks_eq_value h with ⟨e, -, rfl, rfl⟩ | ⟨name, t, made, -, hmade, rfl⟩
  · exact ⟨rfl, nofun⟩
  · obtain ⟨helpers, guards⟩ := hi hmade
    split_ifs
    · -- Checks made only when the member is there call the same functions.
      have guards : ∀ type ∈ Check.callsAll made, s.generates type := guards
      refine ⟨?_, ?_⟩
      · simpa [Check.helpersAll, Check.helpers] using helpers
      · simpa [Check.callsAll, Check.calls] using guards
    · exact ⟨helpers, guards⟩

theorem records_membersChecks : ∀ {ms : List Member} {n : Notes} {checks : List Check},
    membersChecks inner s a ms = ⟨n, .value checks⟩ → s.Records n checks
  | [], n, checks, h => by
    obtain ⟨rfl, rfl⟩ := pure_eq_value.1 h
    exact ⟨rfl, nofun⟩
  | m :: ms, n, checks, h => by
    obtain ⟨j, first, k, more, hfirst, hmore, rfl, rfl⟩ := membersChecks_cons h
    exact (records_memberChecks hi hfirst).append (records_membersChecks hmore)

theorem records_objectChecksWith {ms : List Member} {n : Notes} {checks : List Check}
    (h : objectChecksWith inner s a ms = ⟨n, .value checks⟩) : s.Records n checks := by
  obtain ⟨k, made, hmade, rfl, rfl⟩ := objectChecksWith_eq_value h
  have hobject : s.Records ⟨[.isUnknownObject], []⟩ [.isObject a] := ⟨rfl, nofun⟩
  exact hobject.append (records_membersChecks hi hmade)

end

section
variable {inner : Scope → Accessor → TypeExpr → Synthesis (List Check)}

mutual

/-- **The checks of a description** call the helpers noted, and guards of the unit. -/
theorem records_checksWith (hi : Recording inner) :
    ∀ {d : Description} {s : Scope} {a : Accessor} {n : Notes}
      {checks : List Check}, checksWith inner s a d = ⟨n, .value checks⟩ → s.Records n checks
  | .classLike name ms, s, a, n, checks, h => by
    rw [checksWith] at h
    split_ifs at h with hdate hexp hgen
    · obtain ⟨rfl, rfl⟩ := pure_eq_value.1 h
      exact .silent rfl rfl
    · obtain ⟨rfl, rfl⟩ := pure_eq_value.1 h
      refine ⟨rfl, ?_⟩
      simpa [Check.callsAll, Check.calls] using hgen
    · exact absurd h fail_ne_value
    · obtain ⟨helpers, guards⟩ := records_objectChecksWith hi h
      exact ⟨helpers, guards⟩
  | .alias name target, s, a, n, checks, h => by
    rw [checksWith] at h
    split_ifs at h with hexp
    · exact absurd h fail_ne_value
    · obtain ⟨helpers, guards⟩ := records_checksWith hi h
      exact ⟨helpers, guards⟩
  | .object ms, s, a, n, checks, h => by
    rw [checksWith] at h
    exact records_objectChecksWith hi h
  | .array element, s, a, n, checks, h => by
    obtain ⟨k, made, hmade, rfl, rfl⟩ := checksWith_array h
    obtain ⟨helpers, guards⟩ := records_checksWith hi hmade
    refine ⟨?_, ?_⟩
    · simp [Notes.helpers_append, Check.helpersAll, Check.helpers, helpers]
    · simpa [Check.callsAll, Check.calls] using guards
  | .union ds, s, a, n, checks, h => by
    obtain ⟨made, hmade, rfl⟩ := checksWith_union h
    obtain ⟨helpers, guards⟩ := records_checksOfAll hi hmade
    refine ⟨?_, ?_⟩
    · simpa [Check.helpersAll, Check.helpers] using helpers
    · simpa [Check.callsAll, Check.calls] using guards
  | .literal value, s, a, n, checks, h => by
    rw [checksWith] at h
    obtain ⟨rfl, rfl⟩ := pure_eq_value.1 h
    exact .silent rfl rfl
  | .primitive kind, s, a, n, checks, h => by
    rw [checksWith] at h
    obtain ⟨rfl, rfl⟩ := pure_eq_value.1 h
    split_ifs
    · exact .silent rfl rfl
    · exact .silent rfl rfl
  | .reference name, s, a, n, checks, h => by
    rw [checksWith] at h
    obtain ⟨rfl, rfl⟩ := pure_eq_value.1 h
    exact ⟨rfl, nofun⟩
  | .unsupported kind, s, a, n, checks, h => by
    rw [checksWith] at h
    exact absurd h fail_ne_value

/-- The checks of several descriptions call the helpers noted, and guards of the unit. -/
theorem records_checksOfAll (hi : Recording inner) :
    ∀ {ds : List Description} {s : Scope} {a : Accessor} {n : Notes}
      {made : List (List Check)}, checksOfAll inner s a ds = ⟨n, .value made⟩ →
      n.helpers = Check.helpersEach made ∧ ∀ type ∈ Check.callsEach made, s.generates type
  | [], s, a, n, made, h => by
    rw [checksOfAll] at h
    obtain ⟨rfl, rfl⟩ := pure_eq_value.1 h
    exact ⟨rfl, nofun⟩
  | d :: ds, s, a, n, made, h => by
    obtain ⟨j, first, k, more, hfirst, hmore, rfl, rfl⟩ := checksOfAll_cons h
    have hd := records_checksWith hi hfirst
    obtain ⟨helpers, guards⟩ := records_checksOfAll hi hmore
    refine ⟨?_, ?_⟩
    · rw [Notes.helpers_append, Check.helpersEach, hd.helpers, helpers]
    · intro type ht
      rw [Check.callsEach, List.mem_append] at ht
      rcases ht with ht | ht
      · exact hd.guards type ht
      · exact guards type ht

end

end

/-- The checks of a declared type call the helpers noted, and guards of the unit, however many
    members are passed through. -/
theorem recording_checksOfType (bound : Nat) : Recording (checksOfType bound) := by
  induction bound with
  | zero =>
    intro s a t n checks h
    exact absurd h endless_ne_value
  | succ bound ih =>
    intro s a t n checks h
    obtain ⟨d, -, hmade⟩ := checksOfType_succ h
    exact records_checksWith ih hmade

/-! ## Defaults -/

variable {α β : Type}

/-- No helper is noted. -/
def Unaided (x : Synthesis α) : Prop := x.notes.helpers = []

theorem Unaided.bind {x : Synthesis α} {f : α → Synthesis β} (hx : x.Unaided)
    (hf : ∀ a, (f a).Unaided) : (x >>= f).Unaided := by
  obtain ⟨n, o⟩ := x
  cases o with
  | value a =>
    show (n ++ (f a).notes).helpers = []
    rw [Notes.helpers_append, List.append_eq_nil_iff]
    exact ⟨hx, hf a⟩
  | error e => exact hx
  | endless => exact hx

theorem Unaided.attempt {x : Synthesis α} (hx : x.Unaided) : (attempt x).Unaided := by
  obtain ⟨n, o⟩ := x
  cases o <;> exact hx

theorem unaided_ofDescribed (x : Except ResolveError α) : (ofDescribed x).Unaided := by
  cases x <;> rfl

section
variable {inner : Scope → TypeExpr → Synthesis Expr} (hi : ∀ s t, (inner s t).Unaided)
include hi

theorem unaided_entryOf (s : Scope) (m : Member) : (entryOf inner s m).Unaided := by
  unfold entryOf
  cases m.property? with
  | error e => rfl
  | ok named =>
    refine (hi _ _).attempt.bind fun r => ?_
    cases r with
    | ok value => rfl
    | error e =>
      dsimp only
      split_ifs <;> rfl

theorem unaided_recordWith (s : Scope) (ms : List Member) (spread cast : Option String) :
    (recordWith inner s ms spread cast).Unaided := by
  have entries : (entriesOf inner s ms).Unaided := by
    induction ms with
    | nil => rfl
    | cons m ms ih => exact (unaided_entryOf hi s m).bind fun _ => ih.bind fun _ => rfl
  exact entries.bind fun _ => rfl

end

section
variable {inner : Scope → TypeExpr → Synthesis Expr}

mutual

theorem unaided_defaultWith (hi : ∀ s t, (inner s t).Unaided) :
    ∀ (d : Description) (s : Scope), (defaultWith inner s d).Unaided
  | .classLike name ms, s => by
    rw [defaultWith]
    split_ifs
    · rfl
    · rfl
    · rfl
    · exact unaided_recordWith hi _ _ _ _
  | .alias name target, s => by
    rw [defaultWith]
    split_ifs
    · rfl
    · exact unaided_defaultWith hi target _
  | .object ms, s => by rw [defaultWith]; exact unaided_recordWith hi _ _ _ _
  | .union ds, s => by rw [defaultWith]; exact unaided_defaultOfFirst hi ds s
  | .array _, s | .literal _, s | .primitive _, s | .reference _, s | .unsupported _, s => by
    rw [defaultWith]; rfl

theorem unaided_defaultOfFirst (hi : ∀ s t, (inner s t).Unaided) :
    ∀ (ds : List Description) (s : Scope), (defaultOfFirst inner s ds).Unaided
  | [], s => by rw [defaultOfFirst]; rfl
  | d :: _, s => by rw [defaultOfFirst]; exact unaided_defaultWith hi d s

end

end

theorem unaided_defaultOfType (bound : Nat) : ∀ (s : Scope) (t : TypeExpr),
    (defaultOfType bound s t).Unaided := by
  induction bound with
  | zero => intro s t; rfl
  | succ bound ih =>
    intro s t
    exact (unaided_ofDescribed _).bind fun d => unaided_defaultWith ih d s

end Synthesis

namespace Scope

variable {s : Scope} {a : Accessor} {ms : List Member}

/-- **The checks of an object** call the helpers noted, and guards of the unit. -/
theorem records_objectChecksOf {n : Notes} {checks : List Check}
    (h : s.objectChecksOf a ms = ⟨n, .value checks⟩) : s.Records n checks :=
  Synthesis.records_objectChecksWith (Synthesis.recording_checksOfType _) h

/-- **No helper is noted for a record.** -/
theorem helpers_recordOf (s : Scope) (ms : List Member) (spread cast : Option String) :
    (s.recordOf ms spread cast).notes.helpers = [] :=
  Synthesis.unaided_recordWith (Synthesis.unaided_defaultOfType _) s ms spread cast

end Scope

end InterfaceGuards
