/-
  Both walkers decide by names.

  * `Meeting.byName`: what is made of a reference, going by its name alone.
  * `Meeting.Decided`: it was made by name, and no two declarations of one name were being expanded.
  * `Spot.Proper`: the names that a scope has as being expanded are those of the sites.
  * `decided_of_mem_met`: every reference met for a unit is decided by name.
-/
import InterfaceGuards.Proofs.Recursion.Watched
import InterfaceGuards.Proofs.Synthesis.Outcome

namespace InterfaceGuards

open Script (Accessor Check Expr)

variable {c : Catalog} {u : SourceUnit} {α β : Type}

namespace Meeting

/-- A declaration with the name of the one meant is being expanded.  A class called `Date` has no
    namesakes, being taken for the built-in class. -/
def HasNamesake (m : Meeting) : Prop :=
  m.referent ≠ .date ∧ m.site.name ∈ m.expanding.map Site.name

instance (m : Meeting) : Decidable m.HasNamesake := inferInstanceAs (Decidable (_ ∧ _))

/-- A call of a guard may stand for the reference: a class or interface is to be checked, and the
    unit has an interface of the name. -/
def MayCall (u : SourceUnit) (m : Meeting) : Prop :=
  m.purpose = .guard ∧ m.referent = .classLike ∧ ∃ d ∈ u.interfaces, d.name = m.site.name

instance (m : Meeting) : Decidable (m.MayCall u) := inferInstanceAs (Decidable (_ ∧ _))

/-- What is made of a reference, going by its name. -/
def byName (u : SourceUnit) (m : Meeting) : Response :=
  if m.HasNamesake then if m.MayCall u then .called else .refused else .inlined

/-- What is made of the reference goes by its name; the declarations being expanded have different
    names, and all sites are sites of declarations. -/
structure Decided (c : Catalog) (u : SourceUnit) (m : Meeting) : Prop where
  response : m.response = m.byName u
  nodup : (m.expanding.map Site.name).Nodup
  declared : ∀ site ∈ m.site :: m.expanding, ∃ d, c.at? site = some d

variable {m : Meeting}

theorem hasNamesake_of_response (hm : m.Decided c u) (hr : m.response ≠ .inlined) :
    m.HasNamesake := by
  rw [hm.response, byName] at hr
  by_cases hn : m.HasNamesake
  · exact hn
  · exact absurd (if_neg hn) hr

theorem mayCall_of_response (hm : m.Decided c u) (hr : m.response = .called) : m.MayCall u := by
  rw [hm.response, byName] at hr
  split_ifs at hr with hn hcall
  exact hcall

end Meeting

/-- A spot at which work on a unit stands: the names being expanded are those of its sites, all of
    them different, and the sites are sites of declarations. -/
structure Spot.Proper (c : Catalog) (u : SourceUnit) (s : Spot) : Prop where
  catalog : s.scope.catalog = c
  unit : s.scope.unit = u
  names : s.scope.expanding = s.sites.map Site.name
  nodup : (s.sites.map Site.name).Nodup
  declared : ∀ site ∈ s.sites, ∃ d, c.at? site = some d

namespace Spot.Proper

variable {s : Spot}

theorem start : (Spot.start c u).Proper c u := ⟨rfl, rfl, rfl, List.nodup_nil, by simp [Spot.start]⟩

theorem within (h : s.Proper c u) (segment : String) : (s.within segment).Proper c u :=
  ⟨h.catalog, h.unit, h.names, h.nodup, h.declared⟩

theorem isExpanding (h : s.Proper c u) (name : String) :
    s.scope.isExpanding name = true ↔ name ∈ s.sites.map Site.name := by
  rw [Scope.isExpanding, h.names, List.contains_iff_mem]

theorem generates (h : s.Proper c u) (name : String) :
    s.scope.generates name = true ↔ ∃ d ∈ u.interfaces, d.name = name := by
  simp [Scope.generates, h.unit]

theorem expand (h : s.Proper c u) {site : Site} (hs : ¬ s.scope.isExpanding site.name = true)
    {d : Declaration} (hd : c.at? site = some d) : (s.expand site).Proper c u where
  catalog := h.catalog
  unit := h.unit
  names := by show site.name :: s.scope.expanding = _; rw [h.names]; rfl
  nodup := List.nodup_cons.2 ⟨by rwa [← h.isExpanding], h.nodup⟩
  declared := List.forall_mem_cons.2 ⟨⟨d, hd⟩, h.declared⟩

variable {purpose : Purpose} {referent : Referent} {site : Site} {response : Response}

theorem hasNamesake (h : s.Proper c u) :
    (Meeting.mk purpose referent site s.sites response).HasNamesake ↔
      referent ≠ .date ∧ s.scope.isExpanding site.name = true := by
  rw [h.isExpanding]
  rfl

theorem mayCall (h : s.Proper c u) :
    (Meeting.mk purpose referent site s.sites response).MayCall u ↔
      purpose = .guard ∧ referent = .classLike ∧ s.scope.generates site.name = true := by
  rw [h.generates]
  rfl

/-- A reference that is met at a proper spot and answered by name is decided. -/
theorem decided (h : s.Proper c u) {d : Declaration} (hd : c.at? site = some d)
    (hr : response = (Meeting.mk purpose referent site s.sites response).byName u) :
    (Meeting.mk purpose referent site s.sites response).Decided c u :=
  ⟨hr, h.nodup, List.forall_mem_cons.2 ⟨⟨d, hd⟩, h.declared⟩⟩

end Spot.Proper

namespace Watched

theorem met_bind_of_value {x : Watched α} {f : α → Watched β} {a : α}
    (h : x.made.outcome = .value a) : (x >>= f).met = x.met ++ (f a).met := by
  show (Watched.bind x f).met = _
  rw [Watched.bind, h]

theorem met_bind_of_ne_value {x : Watched α} {f : α → Watched β}
    (h : ∀ a, x.made.outcome ≠ .value a) : (x >>= f).met = x.met := by
  show (Watched.bind x f).met = _
  rw [Watched.bind]
  split
  · exact absurd ‹_› (h _)
  · rfl

/-- Every reference met is met for the purpose, and decided by name. -/
def ByName (c : Catalog) (u : SourceUnit) (purpose : Purpose) (x : Watched α) : Prop :=
  ∀ m ∈ x.met, m.purpose = purpose ∧ m.Decided c u

variable {purpose : Purpose}

theorem byName_unmet {x : Synthesis α} : (unmet x).ByName c u purpose := by
  intro m hm
  cases hm

/-- What is met in a sequence is met in one of its parts. -/
theorem forall_met_bind {P : Meeting → Prop} {x : Watched α} {f : α → Watched β}
    (hx : ∀ m ∈ x.met, P m) (hf : ∀ a, x.made.outcome = .value a → ∀ m ∈ (f a).met, P m) :
    ∀ m ∈ (x >>= f).met, P m := by
  by_cases h : ∃ a, x.made.outcome = .value a
  · obtain ⟨a, ha⟩ := h
    rw [met_bind_of_value ha]
    exact List.forall_mem_append.2 ⟨hx, hf a ha⟩
  · rw [met_bind_of_ne_value fun a ha => h ⟨a, ha⟩]
    exact hx

namespace ByName

theorem bind {x : Watched α} {f : α → Watched β} (hx : x.ByName c u purpose)
    (hf : ∀ a, x.made.outcome = .value a → (f a).ByName c u purpose) :
    (x >>= f).ByName c u purpose :=
  forall_met_bind hx hf

theorem attempt {x : Watched α} (hx : x.ByName c u purpose) : x.attempt.ByName c u purpose := hx

theorem meet {s : Spot} {referent : Referent} {site : Site} {response : Response} {x : Watched α}
    (hm : (Meeting.mk purpose referent site s.sites response).Decided c u)
    (hx : x.ByName c u purpose) :
    (Watched.meet s purpose referent site response x).ByName c u purpose :=
  List.forall_mem_cons.2 ⟨⟨rfl, hm⟩, hx⟩

end ByName

/-! ## Checks -/

section
variable {inner : Spot → Accessor → TypeExpr → Watched (List Check)}
  (hi : ∀ {s : Spot} {a : Accessor} {t : TypeExpr}, s.Proper c u →
    (inner s a t).ByName c u .guard)
include hi

theorem byName_memberChecks {s : Spot} (hs : s.Proper c u) (a : Accessor) (m : Member) :
    (memberChecks inner s a m).ByName c u .guard := by
  unfold memberChecks
  cases m.property? with
  | error e => exact byName_unmet.bind fun _ _ => byName_unmet
  | ok p => exact (hi (hs.within p.1)).bind fun _ _ => byName_unmet

theorem byName_membersChecks {s : Spot} (hs : s.Proper c u) (a : Accessor) : ∀ ms : List Member,
    (membersChecks inner s a ms).ByName c u .guard
  | [] => byName_unmet
  | m :: ms => (byName_memberChecks hi hs a m).bind fun _ _ =>
      (byName_membersChecks hs a ms).bind fun _ _ => byName_unmet

theorem byName_objectChecksWith {s : Spot} (hs : s.Proper c u) (a : Accessor) (ms : List Member) :
    (objectChecksWith inner s a ms).ByName c u .guard :=
  byName_unmet.bind fun _ _ => (byName_membersChecks hi hs a ms).bind fun _ _ => byName_unmet

end

section
variable {inner : Spot → Accessor → TypeExpr → Watched (List Check)}

mutual

/-- **The checks of a description decide by name.** -/
theorem byName_checksWith
    (hi : ∀ {s : Spot} {a : Accessor} {t : TypeExpr}, s.Proper c u →
      (inner s a t).ByName c u .guard)
    {s : Spot} (hs : s.Proper c u) (a : Accessor) :
    ∀ {d : Sited}, c.AtSites d → (checksWith inner s a d).ByName c u .guard
  | .classLike site ms, hd => by
    cases hd with
    | classLike hsite =>
      rw [checksWith]
      split_ifs with hdate hexp hgen
      · exact byName_unmet.meet (hs.decided hsite (by simp [Meeting.byName, hs.hasNamesake]))
      · exact byName_unmet.meet (hs.decided hsite
          (by simp [Meeting.byName, hs.hasNamesake, hs.mayCall, hexp, hgen]))
      · exact byName_unmet.meet (hs.decided hsite
          (by simp [Meeting.byName, hs.hasNamesake, hs.mayCall, hexp, hgen]))
      · exact (byName_objectChecksWith hi (hs.expand hexp hsite) a _).meet
          (hs.decided hsite (by simp [Meeting.byName, hs.hasNamesake, hexp]))
  | .named site ms, hd => by
    cases hd with
    | named hsite =>
      rw [checksWith]
      split_ifs with hexp
      · exact byName_unmet.meet (hs.decided hsite
          (by simp [Meeting.byName, hs.hasNamesake, hs.mayCall, hexp]))
      · exact (byName_objectChecksWith hi (hs.expand hexp hsite) a _).meet
          (hs.decided hsite (by simp [Meeting.byName, hs.hasNamesake, hexp]))
  | .date, _ => by rw [checksWith]; exact byName_unmet
  | .object ms, _ => by rw [checksWith]; exact byName_objectChecksWith hi hs a ms
  | .array element, hd => by
    cases hd with
    | array hd =>
      rw [checksWith]
      exact byName_unmet.bind fun _ _ => (byName_checksWith hi hs .value hd).bind fun _ _ =>
        byName_unmet
  | .union ds, hd => by
    cases hd with
    | union hd =>
      rw [checksWith]
      split_ifs
      · exact byName_unmet
      · exact (byName_checksOfAll hi hs a hd).bind fun _ _ => byName_unmet
  | .literal value, _ => by rw [checksWith]; exact byName_unmet
  | .primitive kind, _ => by rw [checksWith]; exact byName_unmet
  | .reference name, _ => by rw [checksWith]; exact byName_unmet
  | .unsupported kind, _ => by rw [checksWith]; exact byName_unmet

theorem byName_checksOfAll
    (hi : ∀ {s : Spot} {a : Accessor} {t : TypeExpr}, s.Proper c u →
      (inner s a t).ByName c u .guard)
    {s : Spot} (hs : s.Proper c u) (a : Accessor) :
    ∀ {ds : List Sited}, (∀ d ∈ ds, c.AtSites d) → (checksOfAll inner s a ds).ByName c u .guard
  | [], _ => by rw [checksOfAll]; exact byName_unmet
  | d :: ds, hd => by
    rw [checksOfAll]
    exact (byName_checksWith hi hs a (hd d (by simp))).bind fun _ _ =>
      (byName_checksOfAll hi hs a fun e he => hd e (by simp [he])).bind fun _ _ => byName_unmet

end

end

theorem byName_checksOfType (bound : Nat) : ∀ {s : Spot} {a : Accessor} {t : TypeExpr},
    s.Proper c u → (checksOfType bound s a t).ByName c u .guard := by
  induction bound with
  | zero => exact fun _ => byName_unmet
  | succ bound ih =>
    intro s a t hs
    refine byName_unmet.bind fun d hd => byName_checksWith ih hs a ?_
    obtain ⟨-, hd⟩ := Synthesis.ofDescribed_eq_value.1 (Synthesis.eq_of_outcome hd)
    exact Catalog.atSites_of_sited (hs.catalog ▸ hd)

/-! ## Defaults -/

section
variable {inner : Spot → TypeExpr → Watched Expr}
  (hi : ∀ {s : Spot} {t : TypeExpr}, s.Proper c u → (inner s t).ByName c u .factory)
include hi

theorem byName_entryOf {s : Spot} (hs : s.Proper c u) (m : Member) :
    (entryOf inner s m).ByName c u .factory := by
  unfold entryOf
  cases m.property? with
  | error e => exact byName_unmet.bind fun _ _ => byName_unmet
  | ok p =>
    refine (hi (hs.within p.1)).attempt.bind fun r _ => ?_
    cases r with
    | ok e => exact byName_unmet
    | error e =>
      dsimp only
      split_ifs
      · exact byName_unmet
      · exact byName_unmet.bind fun _ _ => byName_unmet

theorem byName_entriesOf {s : Spot} (hs : s.Proper c u) : ∀ ms : List Member,
    (entriesOf inner s ms).ByName c u .factory
  | [] => byName_unmet
  | m :: ms => (byName_entryOf hi hs m).bind fun _ _ =>
      (byName_entriesOf hs ms).bind fun _ _ => byName_unmet

theorem byName_recordWith {s : Spot} (hs : s.Proper c u) (ms : List Member)
    (spread cast : Option String) : (recordWith inner s ms spread cast).ByName c u .factory :=
  (byName_entriesOf hi hs ms).bind fun _ _ => byName_unmet

end

section
variable {inner : Spot → TypeExpr → Watched Expr}

mutual

/-- **The default of a description decides by name.** -/
theorem byName_defaultWith
    (hi : ∀ {s : Spot} {t : TypeExpr}, s.Proper c u → (inner s t).ByName c u .factory)
    {s : Spot} (hs : s.Proper c u) :
    ∀ {d : Sited}, c.AtSites d → (defaultWith inner s d).ByName c u .factory
  | .classLike site ms, hd => by
    cases hd with
    | classLike hsite =>
      rw [defaultWith]
      split_ifs with hdate hexp hempty
      · exact byName_unmet.meet (hs.decided hsite (by simp [Meeting.byName, hs.hasNamesake]))
      · exact byName_unmet.meet (hs.decided hsite
          (by simp [Meeting.byName, hs.hasNamesake, hs.mayCall, hexp]))
      · exact byName_unmet.meet (hs.decided hsite
          (by simp [Meeting.byName, hs.hasNamesake, hexp]))
      · exact (byName_recordWith hi (hs.expand hexp hsite) _ none none).meet
          (hs.decided hsite (by simp [Meeting.byName, hs.hasNamesake, hexp]))
  | .named site ms, hd => by
    cases hd with
    | named hsite =>
      rw [defaultWith]
      split_ifs with hexp
      · exact byName_unmet.meet (hs.decided hsite
          (by simp [Meeting.byName, hs.hasNamesake, hs.mayCall, hexp]))
      · exact (byName_recordWith hi (hs.expand hexp hsite) _ none none).meet
          (hs.decided hsite (by simp [Meeting.byName, hs.hasNamesake, hexp]))
  | .date, _ => by rw [defaultWith]; exact byName_unmet
  | .object ms, _ => by rw [defaultWith]; exact byName_recordWith hi hs ms none none
  | .union ds, hd => by
    cases hd with
    | union hd => rw [defaultWith]; exact byName_defaultOfFirst hi hs hd
  | .array element, _ => by rw [defaultWith]; exact byName_unmet
  | .literal value, _ => by rw [defaultWith]; exact byName_unmet
  | .primitive kind, _ => by rw [defaultWith]; exact byName_unmet
  | .reference name, _ => by rw [defaultWith]; exact byName_unmet
  | .unsupported kind, _ => by rw [defaultWith]; exact byName_unmet

theorem byName_defaultOfFirst
    (hi : ∀ {s : Spot} {t : TypeExpr}, s.Proper c u → (inner s t).ByName c u .factory)
    {s : Spot} (hs : s.Proper c u) :
    ∀ {ds : List Sited}, (∀ d ∈ ds, c.AtSites d) → (defaultOfFirst inner s ds).ByName c u .factory
  | [], _ => by rw [defaultOfFirst]; exact byName_unmet
  | d :: ds, hd => by rw [defaultOfFirst]; exact byName_defaultWith hi hs (hd d (by simp))

end

end

theorem byName_defaultOfType (bound : Nat) : ∀ {s : Spot} {t : TypeExpr}, s.Proper c u →
    (defaultOfType bound s t).ByName c u .factory := by
  induction bound with
  | zero => exact fun _ => byName_unmet
  | succ bound ih =>
    intro s t hs
    refine byName_unmet.bind fun d hd => byName_defaultWith ih hs ?_
    obtain ⟨-, hd⟩ := Synthesis.ofDescribed_eq_value.1 (Synthesis.eq_of_outcome hd)
    exact Catalog.atSites_of_sited (hs.catalog ▸ hd)

/-! ## Units -/

/-- Every reference met for an interface of a unit is decided by name. -/
theorem decided_interfaceScript {unit : Nat} {d e : Declaration}
    (he : c.at? ⟨unit, d.name⟩ = some e) :
    ∀ m ∈ (interfaceScript (.start c u) unit d).met, m.Decided c u := by
  have inside : (((Spot.start c u).within d.name).expand ⟨unit, d.name⟩).Proper c u :=
    (Spot.Proper.start.within d.name).expand Bool.false_ne_true he
  refine forall_met_bind (fun m hm => ?_) fun _ _ => forall_met_bind (fun m hm => ?_) ?_
  · exact (byName_recordWith (byName_defaultOfType _) inside _ _ _ m hm).2
  · exact (byName_objectChecksWith (byName_checksOfType _) inside _ _ m hm).2
  · intro _ _ m hm
    cases hm

theorem decided_metFor {unit : Nat} : ∀ {ds : List Declaration},
    (∀ d ∈ ds, ∃ e, c.at? ⟨unit, d.name⟩ = some e) →
      ∀ m ∈ metFor (.start c u) unit ds, m.Decided c u
  | d :: ds, hds, m, hm => by
    obtain ⟨e, he⟩ := hds d (by simp)
    rcases List.mem_append.1 hm with hm | hm
    · exact decided_interfaceScript he m hm
    · split at hm
      · exact decided_metFor (fun d hd => hds d (by simp [hd])) m hm
      · cases hm

end Watched

theorem Catalog.at?_of_interface {unit : Nat} (hu : c.units[unit]? = some u) :
    ∀ d ∈ u.interfaces, ∃ e, c.at? ⟨unit, d.name⟩ = some e := by
  intro d hd
  rw [← Option.isSome_iff_exists, at?, hu]
  exact List.find?_isSome.2 ⟨d, (List.mem_filter.1 hd).1, by simp⟩

/-- **Every reference met for a unit is decided by name.** -/
theorem Catalog.decided_of_mem_met {unit : Nat} (hu : c.units[unit]? = some u) {m : Meeting}
    (hm : m ∈ c.met unit) : m.Decided c u := by
  rw [met, hu] at hm
  exact Watched.decided_metFor (Catalog.at?_of_interface hu) m hm

end InterfaceGuards
