/-
  What can go wrong while factories and guards are made.

  * `SynthesisError.OfGuard`: the errors that guards fail with.
  * `Scope.first_of_interfaceScripts`: scripts fail for the first interface that has none.
  * `Session.factories_never_fail`: records are never an error, so that the unit fails for the first
    interface whose guard cannot be made.
  * `record_endless_chain`: a record that is no error either, for it has no end.
-/
import InterfaceGuards.Proofs.Synthesis.Direct
import InterfaceGuards.Synthesis.Session

namespace InterfaceGuards

open Relation (ReflTransGen TransGen)
open Script (Accessor Check Expr)
open Expansion (Calls Ends Loops Fits)

/-! ## Errors of guards -/

/-- The error is one that guards fail with: the shape of a type, a name that refers to itself, or one
    that cannot be resolved. -/
inductive SynthesisError.OfGuard : SynthesisError → Prop
  | unsupported {kind} : OfGuard (.unsupported kind)
  | recursive {name} : OfGuard (.recursive name)
  | resolve {error} : OfGuard (.resolve error)

namespace Synthesis

variable {s : Scope} {a : Accessor} {n : Notes} {e : SynthesisError}

section
variable {inner : Scope → Accessor → TypeExpr → Synthesis (List Check)}

theorem ofGuard_of_objectChecksWith
    (hi : ∀ {s a t n e}, inner s a t = ⟨n, .error e⟩ → e.OfGuard) {ms : List Member}
    (h : objectChecksWith inner s a ms = ⟨n, .error e⟩) : e.OfGuard := by
  obtain ⟨k, h⟩ := objectChecksWith_eq_error h
  obtain ⟨m, -, name, t, j, -, hinner⟩ := membersChecks_eq_error h
  exact hi hinner

mutual

/-- **Guards fail for shapes, for names that refer to themselves and for unknown ones**: a member
    that is no property is left out, nothing has to have members, and what is not looked into needs
    no checks. -/
theorem ofGuard_of_checksWith (hi : ∀ {s a t n e}, inner s a t = ⟨n, .error e⟩ → e.OfGuard) :
    ∀ {d : Description} {s : Scope} {a : Accessor} {n : Notes},
      checksWith inner s a d = ⟨n, .error e⟩ → e.OfGuard
  | .classLike name ms, s, a, n, h => by
    rw [checksWith] at h
    split_ifs at h
    · cases h
    · cases h
    · cases h; exact .recursive
    · exact ofGuard_of_objectChecksWith hi h
  | .alias name target, s, a, n, h => by
    rw [checksWith] at h
    split_ifs at h
    · cases h; exact .recursive
    · exact ofGuard_of_checksWith hi h
  | .object ms, s, a, n, h => by
    rw [checksWith] at h
    exact ofGuard_of_objectChecksWith hi h
  | .array element, s, a, n, h => by
    obtain ⟨k, h⟩ := checksWith_array_eq_error h
    exact ofGuard_of_checksWith hi h
  | .union ds, s, a, n, h => by
    rcases checksWith_union_eq_error h with ⟨-, rfl⟩ | h
    · exact .unsupported
    · exact ofGuard_of_checksOfAll hi h
  | .unsupported _, s, a, n, h => by rw [checksWith] at h; cases h; exact .unsupported
  | .literal _, s, a, n, h | .primitive _, s, a, n, h | .reference _, s, a, n, h => by
    rw [checksWith] at h; cases h

theorem ofGuard_of_checksOfAll (hi : ∀ {s a t n e}, inner s a t = ⟨n, .error e⟩ → e.OfGuard) :
    ∀ {ds : List Description} {s : Scope} {a : Accessor} {n : Notes},
      checksOfAll inner s a ds = ⟨n, .error e⟩ → e.OfGuard
  | [], s, a, n, h => by rw [checksOfAll] at h; cases h
  | d :: ds, s, a, n, h => by
    rw [checksOfAll] at h
    rcases bind_eq_error h with h | ⟨_, _, _, -, h⟩
    · exact ofGuard_of_checksWith hi h
    · exact ofGuard_of_checksOfAll hi (bind_pure_eq_error h)

end

end

theorem ofGuard_of_checksOfType {bound : Nat} : ∀ {s : Scope} {a : Accessor} {t : TypeExpr}
    {n : Notes} {e : SynthesisError}, checksOfType bound s a t = ⟨n, .error e⟩ → e.OfGuard := by
  induction bound with
  | zero => intro s a t n e h; cases h
  | succ bound ih =>
    intro s a t n e h
    rw [checksOfType] at h
    rcases ofDescribed_bind_eq_error h with ⟨r, -, -, rfl⟩ | ⟨d, -, h⟩
    · exact .resolve
    · exact ofGuard_of_checksWith ih h

end Synthesis

/-! ## The interface that fails -/

namespace Scope

variable {s : Scope} {d : Declaration} {n : Notes} {e : SynthesisError}

/-- A script fails for its guard, when its record is made. -/
theorem interfaceScript_eq_error (h : s.interfaceScript d = ⟨n, .error e⟩) :
    (∃ k record, (s.inside d).recordOf d.members (some "params") (some d.typeName) =
      ⟨k, .value record⟩) ∧
    ∃ k, (s.inside d).objectChecksOf .value d.members = ⟨k, .error e⟩ := by
  rcases Synthesis.bind_eq_error h with h | ⟨j, record, k, hrecord, h⟩
  · exact absurd h Synthesis.recordWith_ne_error
  · rcases Synthesis.bind_eq_error h with h | ⟨_, _, _, -, h⟩
    · exact ⟨⟨j, record, hrecord⟩, k, h⟩
    · cases h

/-- Scripts fail with an error for the first interface if it has none, and else for a later one. -/
theorem interfaceScripts_cons_eq_error {path : Path} {name : String} {d : Declaration}
    {ds : List Declaration}
    (h : s.interfaceScripts (d :: ds) = .error (.synthesis path name e)) :
    (path = s.unit.path ∧ d.name = name ∧ ∃ n, s.interfaceScript d = ⟨n, .error e⟩) ∨
      (∃ n i, s.interfaceScript d = ⟨n, .value i⟩) ∧
        s.interfaceScripts ds = .error (.synthesis path name e) := by
  rw [interfaceScripts] at h
  cases hmade : (s.interfaceScript d).outcome with
  | error e' =>
    rw [hmade] at h
    cases h
    exact .inl ⟨rfl, rfl, _, Synthesis.eq_of_outcome hmade⟩
  | endless =>
    rw [hmade] at h
    cases h
  | value i =>
    rw [hmade] at h
    refine .inr ⟨⟨_, i, Synthesis.eq_of_outcome hmade⟩, ?_⟩
    cases hrest : s.interfaceScripts ds with
    | error e' =>
      rw [hrest] at h
      exact h
    | ok made =>
      rw [hrest] at h
      cases h

/-- **Scripts fail for the first interface that has none.** -/
theorem first_of_interfaceScripts {path : Path} {name : String} : ∀ {ds : List Declaration},
    s.interfaceScripts ds = .error (.synthesis path name e) →
      path = s.unit.path ∧ ∃ pre d post, ds = pre ++ d :: post ∧ d.name = name ∧
        (∀ d' ∈ pre, ∃ n i, s.interfaceScript d' = ⟨n, .value i⟩) ∧
        ∃ n, s.interfaceScript d = ⟨n, .error e⟩
  | [], h => by cases h
  | d :: ds, h => by
    obtain ⟨hpath, hname, hd⟩ | ⟨hmade, hrest⟩ := interfaceScripts_cons_eq_error h
    · exact ⟨hpath, [], d, ds, rfl, hname, nofun, hd⟩
    · obtain ⟨hpath, pre, d', post, rfl, hname, hpre, hd'⟩ := first_of_interfaceScripts hrest
      exact ⟨hpath, d :: pre, d', post, rfl, hname, List.forall_mem_cons.2 ⟨hmade, hpre⟩, hd'⟩

end Scope

namespace Session

theorem emit_fst {α : Type} (s : Session) (made : Synthesis α) (code : α → Code) :
    (s.emit made code).1 = made.outcome.void := by
  unfold emit Outcome.void
  split <;> simp_all

variable {s : Session} {ms : List Member} {spread cast : Option String}

theorem emitRecord_ne_error (e : SynthesisError) : (s.emitRecord ms spread cast).1 ≠ .error e := by
  rw [emitRecord, emit_fst]
  cases ho : (s.scope.recordOf ms spread cast).outcome with
  | error e' => exact absurd (Synthesis.eq_of_outcome ho) Synthesis.recordWith_ne_error
  | value | endless => exact nofun

theorem emitRecord_eq_value_iff :
    (s.emitRecord ms spread cast).1 = .value () ↔ Ends .factory ⟨s.scope, .members ms⟩ := by
  have hvalue := @Scope.recordOf_value_iff s.scope ms spread cast
  rw [emitRecord, emit_fst, ← hvalue]
  cases (s.scope.recordOf ms spread cast).outcome <;> simp [Outcome.void]

/-- **Factories never fail.**  In whatever session, the writing of a record is never an error, and it
    succeeds exactly if the calls it makes come to an end; so it always does where aliases stand for
    no arrays or unions of object types.  Hence a unit fails for the first of its interfaces whose
    guard cannot be made, for one of the reasons that guards fail for. -/
theorem factories_never_fail (s : Session) (ms : List Member) (spread cast : Option String) :
    (∀ e, (s.emitRecord ms spread cast).1 ≠ .error e) ∧
    ((s.emitRecord ms spread cast).1 = .value () ↔ Ends .factory ⟨s.scope, .members ms⟩) ∧
    (s.scope.catalog.Direct → (s.emitRecord ms spread cast).1 = .value ()) ∧
    ∀ (l : Layout) (c : Catalog) (u : SourceUnit) (path : Path) (name : String)
      (e : SynthesisError), l.build c u = .error (.synthesis path name e) →
      path = u.path ∧ e.OfGuard ∧ ∃ pre d post, u.interfaces = pre ++ d :: post ∧ d.name = name ∧
        (∀ d' ∈ pre, ∃ checks,
          (((Scope.start c u).inside d').objectChecksOf .value d'.members).outcome =
            .value checks) ∧
        (∃ record, (((Scope.start c u).inside d).recordOf d.members (some "params")
          (some d.typeName)).outcome = .value record) ∧
        (((Scope.start c u).inside d).objectChecksOf .value d.members).outcome = .error e := by
  refine ⟨emitRecord_ne_error, emitRecord_eq_value_iff, fun hdirect => ?_,
    fun l c u path name e h => ?_⟩
  · exact emitRecord_eq_value_iff.2
      ((s.scope.fits_members ms).ends_of_direct hdirect (s.scope.closed_typesBelow ms))
  · obtain ⟨hpath, pre, d, post, hds, hname, hpre, n, hd⟩ :=
      Scope.first_of_interfaceScripts (Layout.interfaceScripts_of_build h)
    obtain ⟨⟨j, record, hrecord⟩, k, hchecks⟩ := Scope.interfaceScript_eq_error hd
    refine ⟨hpath, ?_, pre, d, post, hds, hname, fun d' hd' => ?_, ?_, ?_⟩
    · exact Synthesis.ofGuard_of_objectChecksWith Synthesis.ofGuard_of_checksOfType hchecks
    · obtain ⟨n, i, hi⟩ := hpre d' hd'
      obtain ⟨-, j, k, -, hmade, -⟩ := Scope.interfaceScript_eq_value hi
      exact ⟨i.checks, by rw [hmade]⟩
    · exact ⟨record, by rw [hrecord]⟩
    · rw [hchecks]

end Session

/-- A unit with an interface whose guard cannot be made, behind one whose guard can. -/
def opaqueUnit : SourceUnit where
  path := ⟨"a.ts"⟩
  declarations := [
    ⟨"Point", .interfaceType, [], [⟨some "x", some (.keyword .number), false, .property⟩]⟩,
    ⟨"Box", .interfaceType, [], [⟨some "content", some (.unsupported "any"), false, .property⟩]⟩]

/-- The unit fails for that interface, though the interface has a factory. -/
theorem factories_never_fail_opaque :
    let l : Layout := ⟨⟨""⟩, ⟨"out"⟩, .spaces 2⟩
    let c : Catalog := ⟨[opaqueUnit]⟩
    l.build c opaqueUnit = .error (.synthesis ⟨"a.ts"⟩ "Box" (.unsupported "any")) ∧
      ∃ d ∈ opaqueUnit.interfaces, d.name = "Box" ∧
        ∃ record, (((Scope.start c opaqueUnit).inside d).recordOf d.members (some "params")
          (some d.typeName)).outcome = .value record := by
  intro l c
  have hbuild : l.build c opaqueUnit =
      .error (.synthesis ⟨"a.ts"⟩ "Box" (.unsupported "any")) := by
    rfl
  obtain ⟨-, -, pre, d, post, hds, hname, -, hrecord, -⟩ :=
    (Session.factories_never_fail (.start c opaqueUnit .standard) [] none none).2.2.2 l c
      opaqueUnit _ _ _ hbuild
  exact ⟨hbuild, d, by simp [hds], hname, hrecord⟩

/-! ## An alias of an object or nothing that refers to itself -/

/-- The alias by its name. -/
def chainAlias : TypeExpr := .named "A" [] (some ⟨"a.ts"⟩)

/-- What the alias stands for when it is an object: a further one of the kind. -/
def chainMember : Member := ⟨some "x", some chainAlias, false, .property⟩

/-- A unit with the alias alone. -/
def chainUnit : SourceUnit :=
  ⟨⟨"a.ts"⟩, [⟨"A", .alias (.union [.object [chainMember], .keyword .null]), [], []⟩]⟩

/-- The session in which work on the unit starts. -/
def chainSession : Session := .start ⟨[chainUnit]⟩ chainUnit .standard

/-- The name of the alias is lost: it is described as the union alone. -/
theorem describe_chain : chainSession.scope.catalog.describe chainAlias =
    .ok (.union [.object [chainMember], .primitive .null]) :=
  rfl

theorem calls_chain : Calls .factory ⟨chainSession.scope, .members [chainMember]⟩
    ⟨chainSession.scope.within "x", .type chainAlias⟩ :=
  .member (List.mem_cons_self ..) rfl

/-- The alias has a member of its own type, with nothing more being expanded. -/
theorem not_ends_chain : ¬ Ends .factory ⟨chainSession.scope.within "x", .type chainAlias⟩ := by
  let s := chainSession.scope.within "x"
  refine fun hends => hends.not_loops ⟨s, chainAlias, s.within "x", .refl, ?_, rfl⟩
  exact (((TransGen.single (.described describe_chain)).tail .first).tail .object).tail
    (.member (List.mem_cons_self ..) rfl)

/-- A record with a member of the alias's type has no end, however far the type is followed, so that
    the writing of it does not succeed. -/
theorem record_endless_chain :
    (chainSession.emitRecord [chainMember] none none).1 = .endless ∧
      ∀ bound, (Synthesis.recordWith (Synthesis.defaultOfType bound) chainSession.scope
        [chainMember] none none).outcome = .endless := by
  have hends : ¬ Ends .factory ⟨chainSession.scope, .members [chainMember]⟩ := fun hends =>
    not_ends_chain (hends.inv calls_chain)
  refine ⟨?_, fun bound => ?_⟩
  · rw [Session.emitRecord, Session.emit_fst, Scope.recordOf_endless_iff.2 hends, Outcome.void]
  · rw [Synthesis.recordWith_endless_iff]
    by_contra hend
    exact hends (Synthesis.descends_defaults.ends bound ⟨_, .members [chainMember]⟩ hend)

end InterfaceGuards
