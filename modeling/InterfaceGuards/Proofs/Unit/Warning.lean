/-
  The warnings of a unit.

  * `Scope.interfaceScripts_reports`: every warning reports a member met from an interface.
  * `Session.no_member_dropped`: in a record every member has an entry or a warning, in a guard every
    malformed one has a warning, and the warnings of a unit name their chains of members.
  * `member_dropped_chain`: a member with neither, for its default has no end.
-/
import InterfaceGuards.Proofs.Synthesis.Account
import InterfaceGuards.Proofs.Synthesis.Call
import InterfaceGuards.Proofs.Unit.Failure

namespace InterfaceGuards

open Script (Accessor Check Expr)
open Expansion (Calls Ends Leads LeftOut Reports)

namespace Scope

variable {s : Scope} {n : Notes}

/-- An optional property has an entry, whatever becomes of its default. -/
theorem Entered.of_optional {m : Member} {entry : Option (String × Expr)} {ws : List Diagnostic}
    {name : String} {t : TypeExpr} (h : s.Entered m entry ws) (hp : m.property? = .ok (name, t))
    (hopt : m.optional = true) : ∃ value, entry = some (name, value) := by
  cases h with
  | leftOut he =>
    cases he with
    | malformed he => simp [hp] at he
    | missing _ hreq => simp [hopt] at hreq
  | made hp' =>
    rw [hp] at hp'
    cases hp'
    exact ⟨_, rfl⟩
  | undefined hp' =>
    rw [hp] at hp'
    cases hp'
    exact ⟨_, rfl⟩

/-- **Every member of a record is accounted for.** -/
theorem recordOf_accounted {ms : List Member} {spread cast : Option String} {e : Expr}
    (h : s.recordOf ms spread cast = ⟨n, .value e⟩) :
    ∃ fates : List (Option (String × Expr) × List Diagnostic),
      List.Forall₂ (fun m fate => s.Entered m fate.1 fate.2) ms fates ∧
        e = .record (fates.filterMap Prod.fst) spread cast ∧ n = ⟨[], fates.flatMap Prod.snd⟩ := by
  have hhelpers := s.helpers_recordOf ms spread cast
  rw [h] at hhelpers
  obtain ⟨es, hes, rfl⟩ := Synthesis.bind_pure_eq_value.1 h
  obtain ⟨fates, hfates, rfl, hwarnings⟩ :=
    Synthesis.entries_accounted Synthesis.reports_defaultOfType hes
  refine ⟨fates, hfates, rfl, ?_⟩
  rw [← hwarnings, ← hhelpers]

/-- **Every warning of an interface reports a member met from it.** -/
theorem interfaceScript_reports {d : Declaration} {i : InterfaceScript}
    (h : s.interfaceScript d = ⟨n, .value i⟩) :
    ∀ w ∈ n.warnings, ∃ p, Reports p ⟨s.inside d, .members d.members⟩ w := by
  obtain ⟨-, j, k, hrecord, hchecks, rfl⟩ := interfaceScript_eq_value h
  intro w hw
  rcases List.mem_append.1 hw with hw | hw
  · exact ⟨.factory, Synthesis.reports_recordWith Synthesis.reports_defaultOfType hrecord w hw⟩
  · exact ⟨.guard, Synthesis.reports_objectChecksWith Synthesis.reports_checksOfType hchecks w hw⟩

theorem interfaceScripts_reports : ∀ {ds : List Declaration} {is : List InterfaceScript} {n : Notes},
    s.interfaceScripts ds = .ok (is, n) →
      ∀ w ∈ n.warnings, ∃ d ∈ ds, ∃ p, Reports p ⟨s.inside d, .members d.members⟩ w
  | [], _, _, h, _, hw => by cases h; cases hw
  | d :: ds, _, _, h, w, hw => by
    obtain ⟨i, j, more, k, hmade, hrest, rfl, rfl⟩ := interfaceScripts_cons h
    rcases List.mem_append.1 hw with hw | hw
    · exact ⟨d, List.mem_cons_self .., interfaceScript_reports hmade w hw⟩
    · obtain ⟨e, he, hreports⟩ := interfaceScripts_reports hrest w hw
      exact ⟨e, List.mem_cons_of_mem _ he, hreports⟩

end Scope

namespace Session

variable {s t : Session} {ms : List Member}

/-- A record is written whose members are all accounted for, if the calls for it come to an end. -/
theorem emitRecord_accounted {spread cast : Option String}
    (hends : Ends .factory ⟨s.scope, .members ms⟩) :
    ∃ fates : List (Option (String × Expr) × List Diagnostic),
      List.Forall₂ (fun m fate => s.scope.Entered m fate.1 fate.2) ms fates ∧
        s.emitRecord ms spread cast =
          (.value (), (s.noted ⟨[], fates.flatMap Prod.snd⟩).write
            (Expr.record (fates.filterMap Prod.fst) spread cast).code) := by
  obtain ⟨e, he⟩ := Scope.recordOf_value_iff.2 hends
  obtain ⟨fates, hfates, rfl, hnotes⟩ := Scope.recordOf_accounted (Synthesis.eq_of_outcome he)
  refine ⟨fates, hfates, ?_⟩
  rw [emitRecord, emit, he, hnotes]

/-- Where checks are written, what each member is reported for is added to the diagnostics. -/
theorem emitObjectChecks_accounted {a : Accessor} (h : s.emitObjectChecks a ms = (.value (), t)) :
    ∃ wss, List.Forall₂ s.scope.Checked ms wss ∧
      t.diagnostics = s.diagnostics ++ wss.flatten := by
  rw [emitObjectChecks, emit] at h
  cases ho : (s.scope.objectChecksOf a ms).outcome with
  | error e => rw [ho] at h; cases h
  | endless => rw [ho] at h; cases h
  | value checks =>
    rw [ho] at h
    cases h
    obtain ⟨k, made, hmade, -, hn⟩ :=
      Synthesis.objectChecksWith_eq_value (Synthesis.eq_of_outcome ho)
    obtain ⟨wss, hwss, hwarnings⟩ :=
      Synthesis.checks_accounted Synthesis.reports_checksOfType hmade
    refine ⟨wss, hwss, congrArg (s.diagnostics ++ ·) ?_⟩
    rw [show (s.scope.objectChecksOf a ms).notes = _ from hn, Notes.warnings_append,
      List.nil_append, hwarnings]

/-- **No member is dropped silently.**  A record is written, with every member in order accounted for
    by an entry or a warning at its place, exactly if the calls that it makes come to an end.  Where
    an object's checks are written, exactly the malformed members are reported.  Every warning below
    a member, and every warning of a unit, names the chain of members, from an interface of the
    unit, to the member left out. -/
theorem no_member_dropped (s : Session) (ms : List Member) :
    (∀ spread cast : Option String,
      (∃ fates : List (Option (String × Expr) × List Diagnostic),
        List.Forall₂ (fun m fate => s.scope.Entered m fate.1 fate.2) ms fates ∧
        s.emitRecord ms spread cast =
          (.value (), (s.noted ⟨[], fates.flatMap Prod.snd⟩).write
            (Expr.record (fates.filterMap Prod.fst) spread cast).code)) ↔
      Ends .factory ⟨s.scope, .members ms⟩) ∧
    (∀ (m : Member) (entry : Option (String × Expr)) (ws : List Diagnostic) (name : String)
      (t : TypeExpr), s.scope.Entered m entry ws → m.property? = .ok (name, t) →
      m.optional = true → ∃ value, entry = some (name, value)) ∧
    (∀ (a : Accessor) (t : Session),
      s.emitObjectChecks a ms = (.value (), t) →
      ∃ wss, List.Forall₂ s.scope.Checked ms wss ∧
        t.diagnostics = s.diagnostics ++ wss.flatten) ∧
    (∀ p x w, Reports p x w → ∃ names s ms m e, Leads p x names ⟨s, .members ms⟩ ∧ m ∈ ms ∧
      LeftOut p s m e ∧ w.phase = p.phase ∧ w.message = "skipped: " ++ e.message ∧
      w.location = some (x.scope.unit.path.text ++ ": " ++
        Text.joinWith "." (x.scope.path.reverse ++ names ++ [m.displayName]))) ∧
    ∀ (l : Layout) (c : Catalog) (u : SourceUnit) (g : GeneratedUnit) (ws : List Diagnostic),
      l.build c u = .ok (g, ws) → ∀ w ∈ ws, ∃ d ∈ u.interfaces, ∃ p names s ms m e,
        Leads p ⟨(Scope.start c u).inside d, .members d.members⟩ names ⟨s, .members ms⟩ ∧
        m ∈ ms ∧ LeftOut p s m e ∧ w.phase = p.phase ∧ w.message = "skipped: " ++ e.message ∧
        w.location = some (u.path.text ++ ": " ++
          Text.joinWith "." (d.name :: names ++ [m.displayName])) := by
  refine ⟨fun spread cast => ⟨?_, emitRecord_accounted⟩,
    fun m entry ws name t h hp hopt => h.of_optional hp hopt,
    fun a t h => emitObjectChecks_accounted h, fun p x w h => h.location,
    fun l c u g ws h w hw => ?_⟩
  · rintro ⟨fates, -, h⟩
    exact emitRecord_eq_value_iff.1 (congrArg Prod.fst h)
  · obtain ⟨n, his, -, -, rfl⟩ := Layout.build_eq_ok h
    obtain ⟨d, hd, p, hreports⟩ := Scope.interfaceScripts_reports his w hw
    obtain ⟨names, s, ms, m, e, hleads, hm, he, hphase, hmessage, hlocation⟩ := hreports.location
    exact ⟨d, hd, p, names, s, ms, m, e, hleads, hm, he, hphase, hmessage, hlocation⟩

end Session

/-- A unit with an interface that has a method in an object of its own. -/
def signatureUnit : SourceUnit where
  path := ⟨"a.ts"⟩
  declarations := [⟨"Handler", .interfaceType, [],
    [⟨some "on", some (.object [⟨some "error", none, false, .method⟩]), false, .property⟩]⟩]

/-- The method is reported by the factory and by the guard, and the warnings lead to it. -/
theorem no_member_dropped_signature : ∃ g ws,
    (⟨⟨""⟩, ⟨"out"⟩, .spaces 2⟩ : Layout).build ⟨[signatureUnit]⟩ signatureUnit = .ok (g, ws) ∧
      ws.map (·.phase) = ["default", "validator"] ∧
      ∀ w ∈ ws, ∃ d ∈ signatureUnit.interfaces, ∃ p names s ms m e,
        Leads p ⟨(Scope.start ⟨[signatureUnit]⟩ signatureUnit).inside d, .members d.members⟩ names
          ⟨s, .members ms⟩ ∧
        m ∈ ms ∧ LeftOut p s m e ∧ w.phase = p.phase ∧ w.message = "skipped: " ++ e.message ∧
        w.location = some ("a.ts" ++ ": " ++
          Text.joinWith "." (d.name :: names ++ [m.displayName])) := by
  have built : ((⟨⟨""⟩, ⟨"out"⟩, .spaces 2⟩ : Layout).build ⟨[signatureUnit]⟩
      signatureUnit).toOption.map (fun made => made.2.map (·.phase)) =
        some ["default", "validator"] := by
    decide +kernel
  cases h : (⟨⟨""⟩, ⟨"out"⟩, .spaces 2⟩ : Layout).build ⟨[signatureUnit]⟩ signatureUnit with
  | error e => rw [h] at built; cases built
  | ok made =>
    obtain ⟨g, ws⟩ := made
    rw [h] at built
    exact ⟨g, ws, rfl, Option.some.inj built,
      (Session.no_member_dropped (.start ⟨[signatureUnit]⟩ signatureUnit .standard) []).2.2.2.2
        _ _ _ g ws h⟩

/-- Nothing becomes of a member whose default has no end: neither is there an entry for it, nor is it
    ever reported. -/
theorem member_dropped_chain :
    (∀ t, chainSession.emitRecord [chainMember] none none ≠ (.value (), t)) ∧
      ∀ entry ws, ¬ chainSession.scope.Entered chainMember entry ws := by
  have hendless {bound : Nat} {n : Notes} {o : Outcome Expr} (h : Synthesis.defaultOfType bound
      (chainSession.scope.within "x") chainAlias = ⟨n, o⟩) : o = .endless := by
    by_contra hend
    have hne : (Synthesis.defaultOfType bound (chainSession.scope.within "x")
        chainAlias).outcome ≠ .endless := by rwa [h]
    exact not_ends_chain (Synthesis.descends_defaults.ends bound
      ⟨chainSession.scope.within "x", .type chainAlias⟩ hne)
  refine ⟨fun t h => ?_, fun entry ws h => ?_⟩
  · have hends := Session.emitRecord_eq_value_iff.1 (congrArg Prod.fst h)
    exact not_ends_chain (hends.inv calls_chain)
  · cases h with
    | leftOut he =>
      cases he with
      | malformed he => cases he
      | missing hp _ hmade =>
        cases hp
        cases hendless hmade
    | made hp hmade =>
      cases hp
      cases hendless hmade
    | undefined hp _ hmade =>
      cases hp
      cases hendless hmade

end InterfaceGuards
