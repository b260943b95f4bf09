/-
  Syntheses that call a deeper one.

  * `Synthesis.GoesAsFar`: calls that come to an end come to the same end.
  * `Synthesis.Steady`: a synthesis that has no end only because one of its calls has none.
  * `steady_checksWith`, `steady_defaultWith`: so it is for checks and for defaults, and the calls
    are made for types that occur in the catalog, inside the scope (`Scope.Inside`).
  * `Scope.Beside`: scopes that differ in the members passed through; whether a synthesis ends does
    not depend on these (`void_checksOfType`, `void_defaultOfType`).
-/
import InterfaceGuards.Proofs.Catalog.Part
import InterfaceGuards.Proofs.Synthesis.Extension

namespace InterfaceGuards

open Script (Accessor Check Expr)

/-! ## Scopes -/

namespace Scope

/-- The second scope is inside the first: further names may be expanded there, all of them declared
    and none of them twice. -/
structure Inside (s s' : Scope) : Prop where
  catalog : s'.catalog = s.catalog
  unit : s'.unit = s.unit
  names : ∃ names, s'.expanding = names ++ s.expanding ∧ names.Nodup ∧
    ∀ name ∈ names, name ∉ s.expanding ∧ name ∈ s.catalog.names

/-- The scopes differ at most in the members passed through. -/
structure Beside (s s' : Scope) : Prop where
  catalog : s'.catalog = s.catalog
  unit : s'.unit = s.unit
  expanding : s'.expanding = s.expanding

variable {s s' s'' : Scope}

namespace Inside

theorem refl (s : Scope) : s.Inside s := ⟨rfl, rfl, [], rfl, .nil, by simp⟩

theorem within (s : Scope) (segment : String) : s.Inside (s.within segment) :=
  ⟨rfl, rfl, [], rfl, .nil, by simp⟩

theorem expand {name : String} (hn : name ∈ s.catalog.names) (he : ¬ s.isExpanding name) :
    s.Inside (s.expand name) := by
  refine ⟨rfl, rfl, [name], rfl, by simp, ?_⟩
  intro n hmem
  obtain rfl := List.mem_singleton.1 hmem
  exact ⟨by simpa [isExpanding] using he, hn⟩

theorem trans (h : s.Inside s') (h' : s'.Inside s'') : s.Inside s'' := by
  obtain ⟨hcatalog, hunit, names, hnames, hnodup, hfresh⟩ := h
  obtain ⟨hcatalog', hunit', names', hnames', hnodup', hfresh'⟩ := h'
  rw [hnames, hcatalog] at hfresh'
  refine ⟨hcatalog'.trans hcatalog, hunit'.trans hunit, names' ++ names, ?_, ?_, ?_⟩
  · rw [hnames', hnames, List.append_assoc]
  · refine List.nodup_append.2 ⟨hnodup', hnodup, fun a ha b hb => ?_⟩
    rintro rfl
    exact (hfresh' a ha).1 (List.mem_append_left _ hb)
  · intro n hn
    rcases List.mem_append.1 hn with hn | hn
    · exact ⟨fun he => (hfresh' n hn).1 (List.mem_append_right _ he), (hfresh' n hn).2⟩
    · exact hfresh n hn

end Inside

namespace Beside

theorem within (h : s.Beside s') (segment segment' : String) :
    (s.within segment).Beside (s'.within segment') :=
  ⟨h.catalog, h.unit, h.expanding⟩

theorem expand (h : s.Beside s') (name : String) : (s.expand name).Beside (s'.expand name) :=
  ⟨h.catalog, h.unit, congrArg (name :: ·) h.expanding⟩

theorem isExpanding (h : s.Beside s') (name : String) :
    s'.isExpanding name = s.isExpanding name := by
  rw [Scope.isExpanding, h.expanding, Scope.isExpanding]

theorem generates (h : s.Beside s') (name : String) : s'.generates name = s.generates name := by
  rw [Scope.generates, h.unit, Scope.generates]

end Beside

end Scope

namespace Synthesis

variable {α β γ ι : Type}

/-! ## Calls -/

/-- Where it is called, the second family of syntheses goes at least as far as the first: what comes
    to an end in the first comes to the same end in the second. -/
def GoesAsFar (Called : ι → Prop) (f g : ι → Synthesis β) : Prop :=
  ∀ i, Called i → (f i).outcome ≠ .endless → g i = f i

/-- A synthesis that depends on others by calling them, only those that `Called` says.  If the calls
    go further it goes as far as before; and if it has no end, one of the calls is to blame: as long
    as that one has no end, neither has the synthesis. -/
structure Steady (Called : ι → Prop) (F : (ι → Synthesis β) → Synthesis α) : Prop where
  mono : ∀ {f g}, GoesAsFar Called f g → (F f).outcome ≠ .endless → F g = F f
  blame : ∀ {f}, (F f).outcome = .endless → ∃ i, Called i ∧ (f i).outcome = .endless ∧
    ∀ g, GoesAsFar Called f g → (g i).outcome = .endless → (F g).outcome = .endless

theorem bind_eq_endless {x : Synthesis α} {f : α → Synthesis β} :
    (x >>= f).outcome = .endless ↔
      x.outcome = .endless ∨ ∃ a, x.outcome = .value a ∧ (f a).outcome = .endless := by
  obtain ⟨n, o⟩ := x
  show (Synthesis.bind _ f).outcome = _ ↔ _
  cases o with
  | value a => simp [Synthesis.bind]
  | error e => simp [Synthesis.bind]
  | endless => simp [Synthesis.bind]

theorem attempt_eq_endless {x : Synthesis α} :
    (attempt x).outcome = .endless ↔ x.outcome = .endless := by
  obtain ⟨n, o⟩ := x
  cases o <;> simp [attempt]

namespace Steady

variable {Called Called' : ι → Prop} {F : (ι → Synthesis β) → Synthesis α}
  {G : α → (ι → Synthesis β) → Synthesis γ}

theorem const {x : Synthesis α} (hx : x.outcome ≠ .endless) :
    Steady (β := β) Called fun _ => x :=
  ⟨fun _ _ => rfl, fun h => absurd h hx⟩

theorem value (a : α) : Steady (β := β) Called fun _ => (pure a : Synthesis α) :=
  .const nofun

theorem failed (e : SynthesisError) : Steady (β := β) Called fun _ => (fail e : Synthesis α) :=
  .const nofun

theorem noted (n : Notes) : Steady (β := β) Called fun _ => note n :=
  .const nofun

theorem call {i : ι} (hi : Called i) : Steady (β := β) Called fun f => f i :=
  ⟨fun hfg h => hfg i hi h, fun h => ⟨i, hi, h, fun _ _ hg => hg⟩⟩

theorem imp (hF : Steady Called F) (h : ∀ i, Called i → Called' i) : Steady Called' F := by
  refine ⟨fun hfg => hF.mono fun i hi => hfg i (h i hi), fun hend => ?_⟩
  obtain ⟨i, hi, hf, hblame⟩ := hF.blame hend
  exact ⟨i, h i hi, hf, fun g hfg => hblame g fun j hj => hfg j (h j hj)⟩

theorem bind (hF : Steady Called F) (hG : ∀ a, Steady Called (G a)) :
    Steady Called fun f => F f >>= fun a => G a f := by
  constructor
  · intro f g hfg h
    exact bind_mono (hF.mono hfg) (fun a _ => (hG a).mono hfg) h
  · intro f h
    rcases bind_eq_endless.1 h with h | ⟨a, ha, h⟩
    · obtain ⟨i, hi, hend, hblame⟩ := hF.blame h
      exact ⟨i, hi, hend, fun g hfg hg => bind_eq_endless.2 (.inl (hblame g hfg hg))⟩
    · -- The first part comes to its end, and to the same one when the calls go further.
      obtain ⟨i, hi, hend, hblame⟩ := (hG a).blame h
      refine ⟨i, hi, hend, fun g hfg hg => bind_eq_endless.2 (.inr ⟨a, ?_, hblame g hfg hg⟩)⟩
      rw [hF.mono hfg (by simp [ha]), ha]

theorem attempt (hF : Steady Called F) : Steady Called fun f => Synthesis.attempt (F f) := by
  constructor
  · intro f g hfg h
    exact attempt_mono (hF.mono hfg) h
  · intro f h
    obtain ⟨i, hi, hend, hblame⟩ := hF.blame (attempt_eq_endless.1 h)
    exact ⟨i, hi, hend, fun g hfg hg => attempt_eq_endless.2 (hblame g hfg hg)⟩

end Steady

variable {s s' : Scope} {a a' : Accessor}

/-! ## Checks -/

/-- The calls that checks make: for types that occur, inside the scope. -/
def CalledForChecks (s : Scope) (i : Scope × Accessor × TypeExpr) : Prop :=
  s.Inside i.1 ∧ s.catalog.Occurs i.2.2

theorem CalledForChecks.of_inside (h : s.Inside s') (i : Scope × Accessor × TypeExpr)
    (hi : CalledForChecks s' i) : CalledForChecks s i :=
  ⟨h.trans hi.1, h.catalog ▸ hi.2⟩

theorem steady_memberChecks {m : Member} (hm : ∀ t, m.type = some t → s.catalog.Occurs t) :
    Steady (CalledForChecks s) fun f => memberChecks (fun s a t => f (s, a, t)) s a m := by
  unfold memberChecks
  cases hp : m.property? with
  | error e => exact (Steady.noted _).bind fun _ => .value _
  | ok named =>
    obtain ⟨name, t⟩ := named
    have called : CalledForChecks s (s.within name, a.property name, t) :=
      ⟨.within s name, hm t (m.type_of_property? hp)⟩
    exact (Steady.call called).bind fun _ => .value _

theorem steady_membersChecks : ∀ {ms : List Member},
    (∀ m ∈ ms, ∀ t, m.type = some t → s.catalog.Occurs t) →
    Steady (CalledForChecks s) fun f => membersChecks (fun s a t => f (s, a, t)) s a ms
  | [], _ => .value _
  | m :: ms, h =>
    (steady_memberChecks (h m (by simp))).bind fun _ =>
      (steady_membersChecks fun m' hm' => h m' (by simp [hm'])).bind fun _ => .value _

theorem steady_objectChecksWith {ms : List Member}
    (h : ∀ m ∈ ms, ∀ t, m.type = some t → s.catalog.Occurs t) :
    Steady (CalledForChecks s) fun f => objectChecksWith (fun s a t => f (s, a, t)) s a ms :=
  (Steady.noted _).bind fun _ =>
    (steady_membersChecks h).bind fun _ => .value _

mutual

/-- **Checks have no end only because those of a member have none.** -/
theorem steady_checksWith : ∀ {d : Description} {s : Scope} {a : Accessor}, s.catalog.Arises d →
    Steady (CalledForChecks s) fun f => checksWith (fun s a t => f (s, a, t)) s a d
  | .classLike name ms, s, a, hd => by
    simp only [checksWith]
    split_ifs with hdate hexp hgen
    · exact .value _
    · exact .value _
    · exact .failed _
    · cases hd with
      | date => exact absurd rfl hdate
      | classLike hdecl =>
        exact (steady_objectChecksWith (s := s.expand _) hdecl.members_occur).imp
          (.of_inside (.expand hdecl.mem_names hexp))
  | .alias name target, s, a, hd => by
    simp only [checksWith]
    split_ifs with hexp
    · exact .failed _
    · cases hd with
      | named hdecl _ ho =>
        exact (steady_checksWith (s := s.expand _) (.object ho)).imp
          (.of_inside (.expand hdecl.mem_names hexp))
  | .object ms, s, a, hd => by
    simp only [checksWith]
    cases hd with
    | object ho => exact steady_objectChecksWith fun _ hm _ ht => .property ho hm ht
  | .array element, s, a, hd => by
    simp only [checksWith]
    cases hd with
    | array hd =>
      exact (Steady.noted _).bind fun _ =>
        (steady_checksWith hd).bind fun _ => .value _
  | .union ds, s, a, hd => by
    simp only [checksWith]
    split_ifs
    · exact .failed _
    · cases hd with
      | union hd =>
        exact (steady_checksOfAll hd).bind fun _ => .value _
  | .literal _, s, a, _ => by
    simp only [checksWith]
    exact .value _
  | .primitive _, s, a, _ => by
    simp only [checksWith]
    exact .value _
  | .reference _, s, a, _ => by
    simp only [checksWith]
    exact .value _
  | .unsupported _, s, a, _ => by
    simp only [checksWith]
    exact .failed _

theorem steady_checksOfAll : ∀ {ds : List Description} {s : Scope} {a : Accessor},
    (∀ d ∈ ds, s.catalog.Arises d) →
    Steady (CalledForChecks s) fun f => checksOfAll (fun s a t => f (s, a, t)) s a ds
  | [], s, a, _ => by
    simp only [checksOfAll]
    exact .value _
  | d :: ds, s, a, h => by
    simp only [checksOfAll]
    exact (steady_checksWith (h d (by simp))).bind fun _ =>
      (steady_checksOfAll fun e he => h e (by simp [he])).bind fun _ => .value _

end

/-- A declared type is described before anything is called for it. -/
theorem steady_described {Called : ι → Prop} {t : TypeExpr}
    {F : Description → (ι → Synthesis β) → Synthesis α}
    (h : ∀ d, s.catalog.describe t = .ok d → Steady Called (F d)) :
    Steady Called fun f => ofDescribed (s.catalog.describe t) >>= fun d => F d f := by
  cases hd : s.catalog.describe t with
  | error e => exact .const (x := ⟨.empty, .error (.resolve e)⟩) nofun
  | ok d =>
    simp only [ofDescribed_ok_bind]
    exact h d hd

/-- The checks of a declared type depend on those of the types of members. -/
theorem steady_checksOfType {t : TypeExpr} (ht : s.catalog.Occurs t) :
    Steady (CalledForChecks s) fun f => ofDescribed (s.catalog.describe t) >>=
      checksWith (fun s a t => f (s, a, t)) s a :=
  steady_described fun _ hd => steady_checksWith (Catalog.arises_of_describe ht hd)

/-! ## Defaults -/

/-- The calls that defaults make: for types that occur, inside the scope. -/
def CalledForDefaults (s : Scope) (i : Scope × TypeExpr) : Prop :=
  s.Inside i.1 ∧ s.catalog.Occurs i.2

theorem CalledForDefaults.of_inside (h : s.Inside s') (i : Scope × TypeExpr)
    (hi : CalledForDefaults s' i) : CalledForDefaults s i :=
  ⟨h.trans hi.1, h.catalog ▸ hi.2⟩

theorem steady_entryOf {m : Member} (hm : ∀ t, m.type = some t → s.catalog.Occurs t) :
    Steady (CalledForDefaults s) fun f => entryOf (fun s t => f (s, t)) s m := by
  unfold entryOf
  cases hp : m.property? with
  | error e => exact (Steady.noted _).bind fun _ => .value _
  | ok named =>
    obtain ⟨name, t⟩ := named
    have called : CalledForDefaults s (s.within name, t) :=
      ⟨.within s name, hm t (m.type_of_property? hp)⟩
    refine (Steady.call called).attempt.bind fun result => ?_
    cases result with
    | ok value => exact .value _
    | error e =>
      dsimp only
      split_ifs
      · exact .value _
      · exact (Steady.noted _).bind fun _ => .value _

theorem steady_entriesOf : ∀ {ms : List Member},
    (∀ m ∈ ms, ∀ t, m.type = some t → s.catalog.Occurs t) →
    Steady (CalledForDefaults s) fun f => entriesOf (fun s t => f (s, t)) s ms
  | [], _ => .value _
  | m :: ms, h =>
    (steady_entryOf (h m (by simp))).bind fun _ =>
      (steady_entriesOf fun m' hm' => h m' (by simp [hm'])).bind fun _ => .value _

theorem steady_recordWith {ms : List Member} {spread cast : Option String}
    (h : ∀ m ∈ ms, ∀ t, m.type = some t → s.catalog.Occurs t) :
    Steady (CalledForDefaults s) fun f => recordWith (fun s t => f (s, t)) s ms spread cast :=
  (steady_entriesOf h).bind fun _ => .value _

mutual

/-- **A default has no end only because that of a member has none.** -/
theorem steady_defaultWith : ∀ {d : Description} {s : Scope}, s.catalog.Arises d →
    Steady (CalledForDefaults s) fun f => defaultWith (fun s t => f (s, t)) s d
  | .classLike name ms, s, hd => by
    simp only [defaultWith]
    split_ifs with hdate hexp hempty
    · exact .value _
    · exact .failed _
    · exact .failed _
    · cases hd with
      | date => exact absurd rfl hdate
      | classLike hdecl =>
        exact (steady_recordWith (s := s.expand _) hdecl.members_occur).imp
          (.of_inside (.expand hdecl.mem_names hexp))
  | .alias name target, s, hd => by
    simp only [defaultWith]
    split_ifs with hexp
    · exact .failed _
    · cases hd with
      | named hdecl _ ho =>
        exact (steady_defaultWith (s := s.expand _) (.object ho)).imp
          (.of_inside (.expand hdecl.mem_names hexp))
  | .object ms, s, hd => by
    simp only [defaultWith]
    cases hd with
    | object ho => exact steady_recordWith fun _ hm _ ht => .property ho hm ht
  | .union ds, s, hd => by
    simp only [defaultWith]
    cases hd with
    | union hd => exact steady_defaultOfFirst hd
  | .array _, s, _ => by
    simp only [defaultWith]
    exact .value _
  | .literal _, s, _ => by
    simp only [defaultWith]
    exact .value _
  | .primitive _, s, _ => by
    simp only [defaultWith]
    exact .value _
  | .reference _, s, _ => by
    simp only [defaultWith]
    exact .failed _
  | .unsupported _, s, _ => by
    simp only [defaultWith]
    exact .failed _

theorem steady_defaultOfFirst : ∀ {ds : List Description} {s : Scope},
    (∀ d ∈ ds, s.catalog.Arises d) →
    Steady (CalledForDefaults s) fun f => defaultOfFirst (fun s t => f (s, t)) s ds
  | [], s, _ => by
    simp only [defaultOfFirst]
    exact .failed _
  | d :: _, s, h => by
    simp only [defaultOfFirst]
    exact steady_defaultWith (h d (by simp))

end

/-- The default of a declared type depends on those of the types of members. -/
theorem steady_defaultOfType {t : TypeExpr} (ht : s.catalog.Occurs t) :
    Steady (CalledForDefaults s) fun f => ofDescribed (s.catalog.describe t) >>=
      defaultWith (fun s t => f (s, t)) s :=
  steady_described fun _ hd => steady_defaultWith (Catalog.arises_of_describe ht hd)

/-! ## Members passed through -/

theorem void_bind {x x' : Synthesis α} {f f' : α → Synthesis β}
    (hx : x.outcome.void = x'.outcome.void)
    (hf : ∀ a a', (f a).outcome.void = (f' a').outcome.void) :
    (x >>= f).outcome.void = (x' >>= f').outcome.void := by
  obtain ⟨n, o⟩ := x
  obtain ⟨n', o'⟩ := x'
  show (Synthesis.bind _ f).outcome.void = (Synthesis.bind _ f').outcome.void
  match o, o', hx with
  | .value a, .value a', _ => exact hf a a'
  | .error e, .error _, hx => simpa [Synthesis.bind, Outcome.void] using hx
  | .endless, .endless, _ => rfl

theorem void_attempt {x x' : Synthesis α} (hx : x.outcome.void = x'.outcome.void) :
    (attempt x).outcome.void = (attempt x').outcome.void := by
  obtain ⟨n, o⟩ := x
  obtain ⟨n', o'⟩ := x'
  match o, o', hx with
  | .value _, .value _, _ | .error _, .error _, _ | .endless, .endless, _ => rfl

section
variable {inner : Scope → Accessor → TypeExpr → Synthesis (List Check)}
  (hi : ∀ (s s' : Scope) (a a' : Accessor) (t : TypeExpr), s.Beside s' →
    (inner s' a' t).outcome.void = (inner s a t).outcome.void)
include hi

theorem void_memberChecks (h : s.Beside s') (m : Member) :
    (memberChecks inner s' a' m).outcome.void = (memberChecks inner s a m).outcome.void := by
  unfold memberChecks
  cases m.property? with
  | error e => rfl
  | ok named =>
    refine void_bind (hi _ _ _ _ _ (h.within _ _)) fun _ _ => ?_
    rfl

theorem void_membersChecks (h : s.Beside s') : ∀ ms : List Member,
    (membersChecks inner s' a' ms).outcome.void = (membersChecks inner s a ms).outcome.void
  | [] => rfl
  | m :: ms =>
    void_bind (void_memberChecks hi h m) fun _ _ =>
      void_bind (void_membersChecks h ms) fun _ _ => rfl

theorem void_objectChecksWith (h : s.Beside s') (ms : List Member) :
    (objectChecksWith inner s' a' ms).outcome.void =
      (objectChecksWith inner s a ms).outcome.void :=
  void_bind rfl fun _ _ => void_bind (void_membersChecks hi h ms) fun _ _ => rfl

end

section
variable {inner : Scope → Accessor → TypeExpr → Synthesis (List Check)}

mutual

theorem void_checksWith
    (hi : ∀ (s s' : Scope) (a a' : Accessor) (t : TypeExpr), s.Beside s' →
      (inner s' a' t).outcome.void = (inner s a t).outcome.void) :
    ∀ (d : Description) {s s' : Scope} {a a' : Accessor}, s.Beside s' →
      (checksWith inner s' a' d).outcome.void = (checksWith inner s a d).outcome.void
  | .classLike name ms, s, s', a, a', h => by
    rw [checksWith, checksWith, h.isExpanding, h.generates]
    split_ifs
    · rfl
    · rfl
    · rfl
    · exact void_objectChecksWith hi (h.expand name) ms
  | .alias name target, s, s', a, a', h => by
    rw [checksWith, checksWith, h.isExpanding]
    split_ifs
    · rfl
    · exact void_checksWith hi target (h.expand name)
  | .object ms, s, s', a, a', h => by
    rw [checksWith, checksWith]
    exact void_objectChecksWith hi h ms
  | .array element, s, s', a, a', h => by
    rw [checksWith, checksWith]
    exact void_bind rfl fun _ _ => void_bind (void_checksWith hi element h) fun _ _ => rfl
  | .union ds, s, s', a, a', h => by
    rw [checksWith, checksWith]
    split_ifs
    · rfl
    · exact void_bind (void_checksOfAll hi ds h) fun _ _ => rfl
  | .literal _, s, s', a, a', h | .primitive _, s, s', a, a', h => by
    rw [checksWith, checksWith]
    rfl
  | .reference _, s, s', a, a', h | .unsupported _, s, s', a, a', h => by
    rw [checksWith, checksWith]

theorem void_checksOfAll
    (hi : ∀ (s s' : Scope) (a a' : Accessor) (t : TypeExpr), s.Beside s' →
      (inner s' a' t).outcome.void = (inner s a t).outcome.void) :
    ∀ (ds : List Description) {s s' : Scope} {a a' : Accessor}, s.Beside s' →
      (checksOfAll inner s' a' ds).outcome.void = (checksOfAll inner s a ds).outcome.void
  | [], s, s', a, a', h => by
    rw [checksOfAll, checksOfAll]
  | d :: ds, s, s', a, a', h => by
    rw [checksOfAll, checksOfAll]
    exact void_bind (void_checksWith hi d h) fun _ _ =>
      void_bind (void_checksOfAll hi ds h) fun _ _ => rfl

end

end

/-- How checks end does not depend on the members passed through, nor on what is checked. -/
theorem void_checksOfType : ∀ (bound : Nat) (s s' : Scope) (a a' : Accessor) (t : TypeExpr),
    s.Beside s' →
    (checksOfType bound s' a' t).outcome.void = (checksOfType bound s a t).outcome.void
  | 0, _, _, _, _, _, _ => rfl
  | bound + 1, s, s', a, a', t, h => by
    rw [checksOfType, checksOfType, h.catalog]
    cases s.catalog.describe t with
    | error e => rfl
    | ok d =>
      rw [ofDescribed_ok_bind, ofDescribed_ok_bind]
      exact void_checksWith (void_checksOfType bound) d h

section
variable {inner : Scope → TypeExpr → Synthesis Expr}
  (hi : ∀ (s s' : Scope) (t : TypeExpr), s.Beside s' →
    (inner s' t).outcome.void = (inner s t).outcome.void)
include hi

theorem void_entryOf (h : s.Beside s') (m : Member) :
    (entryOf inner s' m).outcome.void = (entryOf inner s m).outcome.void := by
  unfold entryOf
  cases m.property? with
  | error e => rfl
  | ok named =>
    refine void_bind (void_attempt (hi _ _ _ (h.within _ _))) fun r r' => ?_
    -- Whatever is recovered from, there is an entry or none, and no error.
    cases r with
    | ok _ => cases r' with
      | ok _ => rfl
      | error _ => dsimp only; split_ifs <;> rfl
    | error _ => cases r' with
      | ok _ => dsimp only; split_ifs <;> rfl
      | error _ => dsimp only; split_ifs <;> rfl

theorem void_entriesOf (h : s.Beside s') : ∀ ms : List Member,
    (entriesOf inner s' ms).outcome.void = (entriesOf inner s ms).outcome.void
  | [] => rfl
  | m :: ms =>
    void_bind (void_entryOf hi h m) fun _ _ => void_bind (void_entriesOf h ms) fun _ _ => rfl

theorem void_recordWith (h : s.Beside s') (ms : List Member) (spread cast : Option String) :
    (recordWith inner s' ms spread cast).outcome.void =
      (recordWith inner s ms spread cast).outcome.void :=
  void_bind (void_entriesOf hi h ms) fun _ _ => rfl

end

section
variable {inner : Scope → TypeExpr → Synthesis Expr}

mutual

theorem void_defaultWith
    (hi : ∀ (s s' : Scope) (t : TypeExpr), s.Beside s' →
      (inner s' t).outcome.void = (inner s t).outcome.void) :
    ∀ (d : Description) {s s' : Scope}, s.Beside s' →
      (defaultWith inner s' d).outcome.void = (defaultWith inner s d).outcome.void
  | .classLike name ms, s, s', h => by
    rw [defaultWith, defaultWith, h.isExpanding]
    split_ifs
    · rfl
    · rfl
    · rfl
    · exact void_recordWith hi (h.expand name) ms none none
  | .alias name target, s, s', h => by
    rw [defaultWith, defaultWith, h.isExpanding]
    split_ifs
    · rfl
    · exact void_defaultWith hi target (h.expand name)
  | .object ms, s, s', h => by
    rw [defaultWith, defaultWith]
    exact void_recordWith hi h ms none none
  | .union ds, s, s', h => by
    rw [defaultWith, defaultWith]
    exact void_defaultOfFirst hi ds h
  | .array _, s, s', h | .literal _, s, s', h | .primitive _, s, s', h | .reference _, s, s', h
  | .unsupported _, s, s', h => by
    rw [defaultWith, defaultWith]

theorem void_defaultOfFirst
    (hi : ∀ (s s' : Scope) (t : TypeExpr), s.Beside s' →
      (inner s' t).outcome.void = (inner s t).outcome.void) :
    ∀ (ds : List Description) {s s' : Scope}, s.Beside s' →
      (defaultOfFirst inner s' ds).outcome.void = (defaultOfFirst inner s ds).outcome.void
  | [], s, s', h => by rw [defaultOfFirst, defaultOfFirst]
  | d :: _, s, s', h => by
    rw [defaultOfFirst, defaultOfFirst]
    exact void_defaultWith hi d h

end

end

/-- How a default ends does not depend on the members passed through. -/
theorem void_defaultOfType : ∀ (bound : Nat) (s s' : Scope) (t : TypeExpr), s.Beside s' →
    (defaultOfType bound s' t).outcome.void = (defaultOfType bound s t).outcome.void
  | 0, _, _, _, _ => rfl
  | bound + 1, s, s', t, h => by
    rw [defaultOfType, defaultOfType, h.catalog]
    cases s.catalog.describe t with
    | error e => rfl
    | ok d =>
      rw [ofDescribed_ok_bind, ofDescribed_ok_bind]
      exact void_defaultWith (void_defaultOfType bound) d h

end Synthesis

end InterfaceGuards
