/-
  Whatever is said of recursion is said of a reference that is met.

  * `Watched.Noted`: no call, error or warning comes from anything but a reference met.
  * `calls_of_build`: the guards called in the output of a unit are those of the references that are
    answered by a call, in their order.
  * `refused_of_warning`, `refused_of_error`: a declaration that is said to refer to itself has the
    name of a reference that is refused.
  * `Catalog.Traced`, `traced`: the references met for a unit are those that its code is made of.
-/
import InterfaceGuards.Proofs.Factory.Default
import InterfaceGuards.Proofs.Guard.Steps
import InterfaceGuards.Proofs.Recursion.Decision
import InterfaceGuards.Proofs.Script.Call
import InterfaceGuards.Proofs.Unit.Build

namespace InterfaceGuards

open Script (Accessor Check Expr)

/-! ## What is said -/

/-- The warning says that the declaration of a name refers to itself. -/
def Diagnostic.SaysRecursive (w : Diagnostic) (name : String) : Prop :=
  w.message = "skipped: " ++ (SynthesisError.recursive name).message

theorem Scope.eq_recursive_of_skipped {s : Scope} {phase name : String} {e : SynthesisError}
    (h : (s.skipped phase e).SaysRecursive name) : e = .recursive name :=
  SynthesisError.eq_recursive_of_message ((String.append_right_inj _).1 h)

/-! ## What is met -/

namespace Meeting

/-- The names of the references answered in one way, in the order in which they are met. -/
def names (response : Response) (ms : List Meeting) : List String :=
  (ms.filter fun m => decide (m.response = response)).map (·.site.name)

theorem names_append (response : Response) (ms ns : List Meeting) :
    names response (ms ++ ns) = names response ms ++ names response ns := by
  rw [names, List.filter_append, List.map_append]
  rfl

/-- No guard is called for a factory. -/
theorem names_called_eq_nil {c : Catalog} {u : SourceUnit} {ms : List Meeting}
    (h : ∀ m ∈ ms, m.purpose = .factory ∧ m.Decided c u) : names .called ms = [] := by
  rw [names, List.map_eq_nil_iff, List.filter_eq_nil_iff]
  intro m hm hcalled
  obtain ⟨hfactory, hdecided⟩ := h m hm
  obtain ⟨hguard, -⟩ := mayCall_of_response hdecided (of_decide_eq_true hcalled)
  rw [hfactory] at hguard
  cases hguard

end Meeting

namespace Watched

variable {α β : Type} {P : List String → α → Prop} {Q : List String → β → Prop}

/-- What is made has to do with the calls that are met as `P` says, and whatever says that a
    declaration refers to itself comes from a reference that is refused. -/
structure Noted (P : List String → α → Prop) (x : Watched α) : Prop where
  value : ∀ a, x.made.outcome = .value a → P (Meeting.names .called x.met) a
  error : ∀ name, x.made.outcome = .error (.recursive name) → name ∈ Meeting.names .refused x.met
  warning : ∀ w ∈ x.made.notes.warnings, ∀ name, w.SaysRecursive name →
    name ∈ Meeting.names .refused x.met

theorem made_bind_of_value {x : Watched α} {f : α → Watched β} {a : α}
    (h : x.made.outcome = .value a) :
    (x >>= f).made = ⟨x.made.notes ++ (f a).made.notes, (f a).made.outcome⟩ := by
  show Synthesis.bind x.made (fun a => (f a).made) = _
  rw [Synthesis.bind, h]

theorem made_bind_of_ne_value {x : Watched α} {f : α → Watched β}
    (h : ∀ a, x.made.outcome ≠ .value a) : (x >>= f).made.notes = x.made.notes ∧
      (∀ b, (x >>= f).made.outcome ≠ .value b) ∧
      ∀ e, (x >>= f).made.outcome = .error e → x.made.outcome = .error e := by
  have hmade : (x >>= f).made = Synthesis.bind x.made fun a => (f a).made := rfl
  rw [hmade, Synthesis.bind]
  cases ho : x.made.outcome with
  | value a => exact absurd ho (h a)
  | error e =>
    refine ⟨rfl, fun b hb => ?_, fun e' he => ?_⟩
    · cases hb
    · cases he
      rfl
  | endless =>
    refine ⟨rfl, fun b hb => ?_, fun e' he => ?_⟩
    · cases hb
    · cases he

theorem noted_pure {a : α} (h : P [] a) : (pure a : Watched α).Noted P where
  value b hb := by cases hb; exact h
  error name hn := by cases hn
  warning w hw := by cases hw

theorem noted_fail {e : SynthesisError} (h : ∀ name, e ≠ .recursive name) :
    (unmet (.fail e) : Watched α).Noted P where
  value b hb := by cases hb
  error name hn := by cases hn; exact absurd rfl (h name)
  warning w hw := by cases hw

theorem noted_unsupported (kind : String) :
    (unmet (.fail (.unsupported kind)) : Watched α).Noted P :=
  noted_fail fun _ h => by cases h

theorem noted_endless : (unmet .endless : Watched α).Noted P where
  value b hb := by cases hb
  error name hn := by cases hn
  warning w hw := by cases hw

theorem noted_require {P : List String → Unit → Prop} (helper : Script.Helper) (h : P [] ()) :
    (unmet (Synthesis.require helper)).Noted P where
  value b _ := h
  error name hn := by cases hn
  warning w hw := by cases hw

/-- A warning about the form of a member says nothing of recursion. -/
theorem noted_skipped {P : List String → Unit → Prop} {m : Member} {e : SynthesisError}
    (hp : m.property? = .error e) (s : Scope) (phase : String) (h : P [] ()) :
    (unmet (Synthesis.warn (s.skipped phase e))).Noted P where
  value b _ := h
  error name hn := by cases hn
  warning w hw name hs := by
    obtain rfl := List.mem_singleton.1 hw
    have hr := Scope.eq_recursive_of_skipped hs
    have := m.isMalformed_of_property? hp
    rw [hr] at this
    cases this

theorem noted_ofDescribed {x : Except ResolveError α} (h : ∀ a, x = .ok a → P [] a) :
    (unmet (.ofDescribed x)).Noted P := by
  cases x with
  | ok a => exact noted_pure (h a rfl)
  | error e => exact noted_fail fun name he => by cases he

namespace Noted

theorem bind {x : Watched α} {f : α → Watched β} (hx : x.Noted P)
    (hf : ∀ l a, P l a → (f a).Noted fun l' b => Q (l ++ l') b) : (x >>= f).Noted Q := by
  by_cases h : ∃ a, x.made.outcome = .value a
  · obtain ⟨a, ha⟩ := h
    have hfa := hf _ a (hx.value a ha)
    refine ⟨fun b hb => ?_, fun name hn => ?_, fun w hw name hs => ?_⟩
    all_goals rw [met_bind_of_value ha, Meeting.names_append]
    · rw [made_bind_of_value ha] at hb
      exact hfa.value b hb
    · rw [made_bind_of_value ha] at hn
      exact List.mem_append_right _ (hfa.error name hn)
    · rw [made_bind_of_value ha] at hw
      rcases List.mem_append.1 hw with hw | hw
      · exact List.mem_append_left _ (hx.warning w hw name hs)
      · exact List.mem_append_right _ (hfa.warning w hw name hs)
  · have hne : ∀ a, x.made.outcome ≠ .value a := fun a ha => h ⟨a, ha⟩
    obtain ⟨hnotes, hvalue, herror⟩ := made_bind_of_ne_value (f := f) hne
    refine ⟨fun b hb => absurd hb (hvalue b), fun name hn => ?_, fun w hw => ?_⟩
    all_goals rw [met_bind_of_ne_value hne]
    · exact hx.error name (herror _ hn)
    · exact hx.warning w (hnotes ▸ hw)

/-- Where an error is made up for, it may be warned about. -/
theorem recover {x : Watched α} {f : Except SynthesisError α → Watched β} (hx : x.Noted P)
    (hok : ∀ a, (f (.ok a)).Noted fun _ _ => True)
    (herror : ∀ e e', (f (.error e)).made.outcome ≠ .error e')
    (hwarning : ∀ e, ∀ w ∈ (f (.error e)).made.notes.warnings, ∀ name, w.SaysRecursive name →
      e = .recursive name) : (attempt x >>= f).Noted fun _ _ => True := by
  obtain ⟨met, notes, o⟩ := x
  cases o with
  | value a =>
    have hx' : (attempt ⟨met, notes, .value a⟩).Noted fun _ r => r = .ok a :=
      ⟨fun r hr => by cases hr; rfl, nofun, hx.warning⟩
    exact hx'.bind fun _ r hr => by rw [hr]; exact hok a
  | error e =>
    have hvalue : (attempt (⟨met, notes, .error e⟩ : Watched α)).made.outcome =
        .value (.error e) := rfl
    refine ⟨fun _ _ => trivial, fun name hn => ?_, fun w hw name hs => ?_⟩
    · rw [made_bind_of_value hvalue] at hn
      exact absurd hn (herror e _)
    · rw [made_bind_of_value hvalue] at hw
      rw [met_bind_of_value hvalue, Meeting.names_append]
      refine List.mem_append_left _ ?_
      rcases List.mem_append.1 hw with hw | hw
      · exact hx.warning w hw name hs
      · exact hx.error name (congrArg _ (hwarning e w hw name hs))
  | endless =>
    have hx' : (attempt (⟨met, notes, .endless⟩ : Watched α)).Noted fun _ _ => False :=
      ⟨nofun, nofun, hx.warning⟩
    exact hx'.bind fun _ _ => False.elim

/-- What is made for a factory calls no guard. -/
theorem uncalled {c : Catalog} {u : SourceUnit} {x : Watched α} (hx : x.Noted P)
    (hm : x.ByName c u .factory) : x.Noted fun l _ => l = [] :=
  ⟨fun _ _ => Meeting.names_called_eq_nil hm, hx.error, hx.warning⟩

theorem inlined {s : Spot} {purpose : Purpose} {referent : Referent} {site : Site} {x : Watched α}
    (hx : x.Noted P) : (meet s purpose referent site .inlined x).Noted P :=
  ⟨hx.value, hx.error, hx.warning⟩

end Noted

theorem noted_called {s : Spot} {purpose : Purpose} {referent : Referent} {site : Site} {a : α}
    (h : P [site.name] a) : (meet s purpose referent site .called (pure a)).Noted P where
  value b hb := by cases hb; exact h
  error name hn := by cases hn
  warning w hw := by cases hw

theorem noted_refused {s : Spot} {purpose : Purpose} {referent : Referent} {site : Site} :
    (meet s purpose referent site .refused
      (unmet (.fail (.recursive site.name)) : Watched α)).Noted P where
  value b hb := by cases hb
  error name hn := by cases hn; exact List.mem_singleton.2 rfl
  warning w hw := by cases hw

/-! ## Checks -/

/-- The checks made call the guards that are met. -/
abbrev Calling : List String → List Check → Prop := fun l checks => Check.callsAll checks = l

section
variable {inner : Spot → Accessor → TypeExpr → Watched (List Check)}
  (hi : ∀ (s : Spot) (a : Accessor) (t : TypeExpr), (inner s a t).Noted Calling)
include hi

theorem noted_memberChecks (s : Spot) (a : Accessor) (m : Member) :
    (memberChecks inner s a m).Noted Calling := by
  unfold memberChecks
  cases hp : m.property? with
  | error e =>
    exact (noted_skipped (P := fun l _ => l = []) hp _ _ rfl).bind fun l _ hl =>
      noted_pure (by rw [hl]; rfl)
  | ok p =>
    refine (hi _ _ _).bind fun l checks hl => noted_pure ?_
    rw [List.append_nil, ← hl]
    split_ifs
    · show Check.callsAll checks ++ [] = _
      rw [List.append_nil]
    · rfl

theorem noted_membersChecks (s : Spot) (a : Accessor) : ∀ ms : List Member,
    (membersChecks inner s a ms).Noted Calling
  | [] => noted_pure rfl
  | m :: ms => (noted_memberChecks hi s a m).bind fun l checks hl =>
      (noted_membersChecks s a ms).bind fun l' more hl' => noted_pure (by
        rw [Calling, Check.callsAll_append, hl, hl', List.append_nil])

theorem noted_objectChecksWith (s : Spot) (a : Accessor) (ms : List Member) :
    (objectChecksWith inner s a ms).Noted Calling :=
  (noted_require (P := fun l _ => l = []) _ rfl).bind fun l _ hl =>
    (noted_membersChecks hi s a ms).bind fun l' checks hl' => noted_pure (by
      show [] ++ Check.callsAll checks = _
      rw [hl, hl', List.append_nil])

end

section
variable {inner : Spot → Accessor → TypeExpr → Watched (List Check)}

mutual

/-- **The checks of a description call the guards that are met.** -/
theorem noted_checksWith
    (hi : ∀ (s : Spot) (a : Accessor) (t : TypeExpr), (inner s a t).Noted Calling)
    (s : Spot) (a : Accessor) : ∀ d : Sited, (checksWith inner s a d).Noted Calling
  | .classLike site ms => by
    rw [checksWith]
    split_ifs
    · exact (noted_pure (P := Calling) rfl).inlined
    · exact noted_called rfl
    · exact noted_refused
    · exact (noted_objectChecksWith hi _ a ms).inlined
  | .named site ms => by
    rw [checksWith]
    split_ifs
    · exact noted_refused
    · exact (noted_objectChecksWith hi _ a ms).inlined
  | .date => by rw [checksWith]; exact noted_pure rfl
  | .object ms => by rw [checksWith]; exact noted_objectChecksWith hi s a ms
  | .array element => by
    rw [checksWith]
    refine (noted_require (P := fun l _ => l = []) _ rfl).bind fun l _ hl =>
      (noted_checksWith hi s .value element).bind fun l' checks hl' => noted_pure ?_
    show Check.callsAll checks ++ [] = _
    rw [hl, hl', List.append_nil, List.nil_append]
  | .union ds => by
    rw [checksWith]
    split_ifs
    · exact noted_unsupported _
    · refine (noted_checksOfAll hi s a ds).bind fun l made hl => noted_pure ?_
      show Check.callsEach made ++ [] = _
      rw [hl, List.append_nil]
  | .literal value => by rw [checksWith]; exact noted_pure rfl
  | .primitive kind => by
    rw [checksWith]
    split_ifs <;> exact noted_pure rfl
  | .reference name => by rw [checksWith]; exact noted_pure rfl
  | .unsupported kind => by rw [checksWith]; exact noted_unsupported kind

theorem noted_checksOfAll
    (hi : ∀ (s : Spot) (a : Accessor) (t : TypeExpr), (inner s a t).Noted Calling)
    (s : Spot) (a : Accessor) : ∀ ds : List Sited,
    (checksOfAll inner s a ds).Noted fun l made => Check.callsEach made = l
  | [] => by rw [checksOfAll]; exact noted_pure rfl
  | d :: ds => by
    rw [checksOfAll]
    refine (noted_checksWith hi s a d).bind fun l checks hl =>
      (noted_checksOfAll hi s a ds).bind fun l' more hl' => noted_pure ?_
    rw [Check.callsEach, hl, hl', List.append_nil]

end

end

theorem noted_checksOfType (bound : Nat) : ∀ (s : Spot) (a : Accessor) (t : TypeExpr),
    (checksOfType bound s a t).Noted Calling := by
  induction bound with
  | zero => exact fun _ _ _ => noted_endless
  | succ bound ih =>
    intro s a t
    exact (noted_ofDescribed (P := fun l _ => l = []) fun _ _ => rfl).bind fun l d hl => by
      rw [hl]
      exact noted_checksWith ih s a d

/-! ## Defaults -/

section
variable {inner : Spot → TypeExpr → Watched Expr}
  (hi : ∀ (s : Spot) (t : TypeExpr), (inner s t).Noted fun _ _ => True)
include hi

/-- A default that cannot be made since a declaration refers to itself is made up for, with a
    warning or without: the reference has been refused before. -/
theorem noted_entryOf (s : Spot) (m : Member) : (entryOf inner s m).Noted fun _ _ => True := by
  unfold entryOf
  cases hp : m.property? with
  | error e =>
    exact (noted_skipped (P := fun _ _ => True) hp _ _ trivial).bind fun _ _ _ => noted_pure trivial
  | ok p =>
    refine (hi _ _).recover (fun e => noted_pure trivial) (fun e e' => ?_) fun e w hw name hs => ?_
    · dsimp only
      split_ifs <;> nofun
    · dsimp only at hw
      split_ifs at hw
      · cases hw
      · obtain rfl := List.mem_singleton.1 hw
        exact Scope.eq_recursive_of_skipped hs

theorem noted_entriesOf (s : Spot) : ∀ ms : List Member,
    (entriesOf inner s ms).Noted fun _ _ => True
  | [] => noted_pure trivial
  | m :: ms => (noted_entryOf hi s m).bind fun _ _ _ =>
      (noted_entriesOf s ms).bind fun _ _ _ => noted_pure trivial

theorem noted_recordWith (s : Spot) (ms : List Member) (spread cast : Option String) :
    (recordWith inner s ms spread cast).Noted fun _ _ => True :=
  (noted_entriesOf hi s ms).bind fun _ _ _ => noted_pure trivial

end

section
variable {inner : Spot → TypeExpr → Watched Expr}

mutual

theorem noted_defaultWith (hi : ∀ (s : Spot) (t : TypeExpr), (inner s t).Noted fun _ _ => True)
    (s : Spot) : ∀ d : Sited, (defaultWith inner s d).Noted fun _ _ => True
  | .classLike site ms => by
    rw [defaultWith]
    split_ifs
    · exact (noted_pure trivial).inlined
    · exact noted_refused
    · exact (noted_fail fun _ h => by cases h).inlined
    · exact (noted_recordWith hi _ ms none none).inlined
  | .named site ms => by
    rw [defaultWith]
    split_ifs
    · exact noted_refused
    · exact (noted_recordWith hi _ ms none none).inlined
  | .date => by rw [defaultWith]; exact noted_pure trivial
  | .object ms => by rw [defaultWith]; exact noted_recordWith hi s ms none none
  | .union ds => by rw [defaultWith]; exact noted_defaultOfFirst hi s ds
  | .array element => by rw [defaultWith]; exact noted_pure trivial
  | .literal value => by rw [defaultWith]; exact noted_pure trivial
  | .primitive kind => by rw [defaultWith]; exact noted_pure trivial
  | .reference name => by rw [defaultWith]; exact noted_fail nofun
  | .unsupported kind => by rw [defaultWith]; exact noted_unsupported kind

theorem noted_defaultOfFirst (hi : ∀ (s : Spot) (t : TypeExpr), (inner s t).Noted fun _ _ => True)
    (s : Spot) : ∀ ds : List Sited, (defaultOfFirst inner s ds).Noted fun _ _ => True
  | [] => by rw [defaultOfFirst]; exact noted_unsupported _
  | d :: _ => by rw [defaultOfFirst]; exact noted_defaultWith hi s d

end

end

theorem noted_defaultOfType (bound : Nat) : ∀ (s : Spot) (t : TypeExpr),
    (defaultOfType bound s t).Noted fun _ _ => True := by
  induction bound with
  | zero => exact fun _ _ => noted_endless
  | succ bound ih =>
    intro s t
    exact (noted_ofDescribed (P := fun _ _ => True) fun _ _ => trivial).bind fun _ d _ =>
      noted_defaultWith ih s d

/-! ## Units -/

variable {c : Catalog} {u : SourceUnit} {unit : Nat}

theorem noted_interfaceScript {d e : Declaration} (he : c.at? ⟨unit, d.name⟩ = some e) :
    (interfaceScript (.start c u) unit d).Noted fun l i => Check.callsAll i.checks = l := by
  have inside : (((Spot.start c u).within d.name).expand ⟨unit, d.name⟩).Proper c u :=
    (Spot.Proper.start.within d.name).expand Bool.false_ne_true he
  refine ((noted_recordWith (noted_defaultOfType _) _ _ _ _).uncalled
    (byName_recordWith (byName_defaultOfType _) inside _ _ _)).bind fun l _ hl =>
      (noted_objectChecksWith (noted_checksOfType _) _ .value d.members).bind fun l' checks hl' =>
        noted_pure ?_
  rw [hl, List.append_nil]
  exact hl'

theorem metFor_cons_of_value {d : Declaration} {ds : List Declaration} {s : Spot}
    {i : InterfaceScript} (h : (interfaceScript s unit d).made.outcome = .value i) :
    metFor s unit (d :: ds) = (interfaceScript s unit d).met ++ metFor s unit ds := by
  rw [metFor]
  simp only [h]

/-- The guards called in the scripts of interfaces are those met, and what is said in warnings of
    declarations that refer to themselves is said of references met. -/
theorem noted_metFor : ∀ {ds : List Declaration} {is : List InterfaceScript} {n : Notes},
    (∀ d ∈ ds, ∃ e, c.at? ⟨unit, d.name⟩ = some e) →
    (Scope.start c u).interfaceScripts ds = .ok (is, n) →
    (is.flatMap fun i => Check.callsAll i.checks) =
        Meeting.names .called (metFor (.start c u) unit ds) ∧
      ∀ w ∈ n.warnings, ∀ name, w.SaysRecursive name →
        name ∈ Meeting.names .refused (metFor (.start c u) unit ds)
  | [], is, n, _, h => by
    cases h
    exact ⟨rfl, nofun⟩
  | d :: ds, is, n, hds, h => by
    obtain ⟨e, he⟩ := hds d (by simp)
    have hd := noted_interfaceScript (u := u) he
    obtain ⟨i, m, is', n', hi, his, rfl, rfl⟩ := Scope.interfaceScripts_cons h
    have hmade : (interfaceScript (.start c u) unit d).made = ⟨m, .value i⟩ :=
      (made_interfaceScript (.start c u) unit d).trans hi
    obtain ⟨hcalls, hwarned⟩ := noted_metFor (fun d' hd' => hds d' (by simp [hd'])) his
    rw [metFor_cons_of_value (by rw [hmade]), Meeting.names_append, Meeting.names_append,
      List.flatMap_cons]
    refine ⟨by rw [hcalls, hd.value i (by rw [hmade])], fun w hw name hs => ?_⟩
    rcases List.mem_append.1 hw with hw | hw
    · exact List.mem_append_left _ (hd.warning w (by rwa [hmade]) name hs)
    · exact List.mem_append_right _ (hwarned w hw name hs)

/-- When an interface has no script since a declaration refers to itself, a reference met to it is
    refused. -/
theorem refused_metFor {path : Path} {declaration name : String} : ∀ {ds : List Declaration},
    (∀ d ∈ ds, ∃ e, c.at? ⟨unit, d.name⟩ = some e) →
    (Scope.start c u).interfaceScripts ds =
      .error (.synthesis path declaration (.recursive name)) →
    name ∈ Meeting.names .refused (metFor (.start c u) unit ds)
  | d :: ds, hds, h => by
    obtain ⟨e, he⟩ := hds d (by simp)
    have hd := noted_interfaceScript (u := u) he
    have hmade := made_interfaceScript (.start c u) unit d
    rw [Scope.interfaceScripts] at h
    rw [metFor, Meeting.names_append]
    cases hi : (Scope.start c u).interfaceScript d with
    | mk m o =>
    replace hmade : (interfaceScript (.start c u) unit d).made = ⟨m, o⟩ := hmade.trans hi
    simp only [hi] at h
    cases o with
    | error e =>
      cases h
      exact List.mem_append_left _ (hd.error name (by rw [hmade]))
    | endless => cases h
    | value i =>
      cases hrest : (Scope.start c u).interfaceScripts ds with
      | ok made => simp [hrest] at h
      | error e =>
        simp only [hrest] at h
        simp only [hmade]
        exact List.mem_append_right _
          (refused_metFor (fun d' hd' => hds d' (by simp [hd'])) (hrest.trans h))

end Watched

/-! ## The output of a unit -/

section
variable {l : Layout} {c : Catalog} {u : SourceUnit} {unit : Nat} (hu : c.units[unit]? = some u)
include hu

/-- **The guards called in the output of a unit** are those of the references answered by a call, in
    the order in which they are met. -/
theorem calls_of_build {g : GeneratedUnit} {ws : List Diagnostic} (h : l.build c u = .ok (g, ws)) :
    (g.script.interfaces.flatMap fun i => Check.callsAll i.checks) =
      Meeting.names .called (c.met unit) := by
  obtain ⟨n, his, -, -, -⟩ := Layout.build_eq_ok h
  rw [Catalog.met, hu]
  exact (Watched.noted_metFor (Catalog.at?_of_interface hu) his).1

/-- **A declaration that a warning says to refer to itself** has the name of a reference that is
    refused. -/
theorem refused_of_warning {g : GeneratedUnit} {ws : List Diagnostic}
    (h : l.build c u = .ok (g, ws)) {w : Diagnostic} (hw : w ∈ ws) {name : String}
    (hs : w.SaysRecursive name) : name ∈ Meeting.names .refused (c.met unit) := by
  obtain ⟨n, his, -, -, rfl⟩ := Layout.build_eq_ok h
  rw [Catalog.met, hu]
  exact (Watched.noted_metFor (Catalog.at?_of_interface hu) his).2 w hw name hs

/-- **A unit that has no output since a declaration refers to itself** meets a reference of its name
    that is refused. -/
theorem refused_of_error {path : Path} {declaration name : String}
    (h : l.build c u = .error (.synthesis path declaration (.recursive name))) :
    name ∈ Meeting.names .refused (c.met unit) := by
  rw [Catalog.met, hu]
  exact Watched.refused_metFor (Catalog.at?_of_interface hu) (Layout.interfaceScripts_of_build h)

end

/-- The references met for a unit are those that its code is made of: they are noted while the
    interfaces of the unit are made, each as it is without notes; the sites in them are those of the
    declarations that names mean; and every call of a guard, and whatever says of a declaration that
    it refers to itself, is there for one of them. -/
structure Catalog.Traced (c : Catalog) (u : SourceUnit) (unit : Nat) : Prop where
  met : c.met unit = Watched.metFor (.start c u) unit u.interfaces
  made : ∀ d, (Watched.interfaceScript (.start c u) unit d).made =
    (Scope.start c u).interfaceScript d
  meant : ∀ name origin, (c.locate? name origin).map (·.2) = c.lookup? name origin
  standing : ∀ {name origin site d}, c.locate? name origin = some (site, d) →
    c.at? site = some d ∧ d.name = site.name
  described : ∀ t, (c.sited t).map Sited.erase = c.describe t
  sites : ∀ {t d}, c.sited t = .ok d → c.AtSites d
  calls : ∀ {l : Layout} {g ws}, l.build c u = .ok (g, ws) →
    (g.script.interfaces.flatMap fun i => Check.callsAll i.checks) =
      Meeting.names .called (c.met unit)
  warning : ∀ {l : Layout} {g ws}, l.build c u = .ok (g, ws) → ∀ w ∈ ws, ∀ name,
    w.SaysRecursive name → name ∈ Meeting.names .refused (c.met unit)
  error : ∀ {l : Layout} {path declaration name},
    l.build c u = .error (.synthesis path declaration (.recursive name)) →
    name ∈ Meeting.names .refused (c.met unit)

/-- **The references met for a unit are those that its code is made of.** -/
theorem Catalog.traced {c : Catalog} {u : SourceUnit} {unit : Nat}
    (hu : c.units[unit]? = some u) : c.Traced u unit where
  met := by rw [met, hu]
  made := Watched.made_interfaceScript (.start c u) unit
  meant := locate?_declaration
  standing := at?_of_locate?
  described := erase_sited
  sites := atSites_of_sited
  calls := calls_of_build hu
  warning h _ hw _ := refused_of_warning hu h hw
  error := refused_of_error hu

end InterfaceGuards
