/-
  Synthesis in a catalog in which more is declared.

  * `Scope.inCatalog`: the same place in another catalog.
  * `Synthesis.bind_mono`: a sequence is made alike when its parts are, unless it has no end.
  * `KeepsChecks`, `KeepsDefaults`: what was made of a declared type is made of it again.
  * `checksOf_of_extends`, `recordOf_of_extends`: checks that could be made stay as they are, and so
    do the defaults of what could be checked.

  Defaults recover from types that mean nothing: an optional member becomes `undefined`, any
  other is left out.  So a default by itself may change when more is declared.  It does not where
  checks could be made, because these describe every type that the default describes.
-/
import InterfaceGuards.Proofs.Catalog.Extension
import InterfaceGuards.Proofs.Factory.Default
import InterfaceGuards.Proofs.Guard.Steps

namespace InterfaceGuards

open Script (Accessor Check Expr)

/-- The same place in another catalog. -/
def Scope.inCatalog (s : Scope) (c : Catalog) : Scope := { s with catalog := c }

theorem Scope.isExpanding_inCatalog {s : Scope} {c : Catalog} {name : String} :
    (s.inCatalog c).isExpanding name = s.isExpanding name :=
  rfl

theorem Scope.generates_inCatalog {s : Scope} {c : Catalog} {name : String} :
    (s.inCatalog c).generates name = s.generates name :=
  rfl

namespace Synthesis

variable {α β : Type}

/-- If other parts are made like those of a sequence, unless these have no end, the sequence of the
    other parts is made like it, unless it has no end. -/
theorem bind_mono {x x' : Synthesis α} {f f' : α → Synthesis β}
    (hx : x.outcome ≠ .endless → x' = x)
    (hf : ∀ a, x.outcome = .value a → (f a).outcome ≠ .endless → f' a = f a)
    (h : (x >>= f).outcome ≠ .endless) : x' >>= f' = x >>= f := by
  obtain ⟨n, o⟩ := x
  cases o with
  | value a =>
    have hrest : f' a = f a := hf a rfl h
    rw [hx (by simp)]
    show Synthesis.bind _ f' = Synthesis.bind _ f
    simp only [Synthesis.bind, hrest]
  | error e =>
    rw [hx (by simp)]
    rfl
  | endless => exact absurd rfl h

theorem attempt_mono {x x' : Synthesis α} (hx : x.outcome ≠ .endless → x' = x)
    (h : (attempt x).outcome ≠ .endless) : attempt x' = attempt x := by
  have hne : x.outcome ≠ .endless := by
    intro hx
    rw [eq_of_outcome hx] at h
    exact h rfl
  rw [hx hne]

/-! ## Checks -/

variable {c c' : Catalog} {check check' : Scope → Accessor → TypeExpr → Synthesis (List Check)}
  {make make' : Scope → TypeExpr → Synthesis Expr} {s : Scope} {a : Accessor} {n : Notes}

/-- Checks of a type of `c` that `check` can make are made by `check'` in `c'`. -/
def KeepsChecks (c c' : Catalog)
    (check check' : Scope → Accessor → TypeExpr → Synthesis (List Check)) : Prop :=
  ∀ {s : Scope} {a : Accessor} {t : TypeExpr} {n : Notes} {checks : List Check}, s.catalog = c →
    c.Occurs t → check s a t = ⟨n, .value checks⟩ →
    check' (s.inCatalog c') a t = ⟨n, .value checks⟩

section
variable (hk : KeepsChecks c c' check check')
include hk

theorem memberChecks_keeps (hc : s.catalog = c) {m : Member} {checks : List Check}
    (ht : ∀ t, m.type = some t → c.Occurs t)
    (h : memberChecks check s a m = ⟨n, .value checks⟩) :
    memberChecks check' (s.inCatalog c') a m = ⟨n, .value checks⟩ := by
  unfold memberChecks
  rcases memberChecks_eq_value h with ⟨e, hp, rfl, rfl⟩ | ⟨name, t, made, hp, hmade, rfl⟩
  · rw [hp]
    rfl
  · have hkept := hk (s := s.within name) hc (ht t (m.type_of_property? hp)) hmade
    rw [hp]
    exact bind_pure_eq_value.2 ⟨made, hkept, rfl⟩

theorem membersChecks_keeps (hc : s.catalog = c) : ∀ {ms : List Member} {n : Notes}
    {checks : List Check}, (∀ m ∈ ms, ∀ t, m.type = some t → c.Occurs t) →
    membersChecks check s a ms = ⟨n, .value checks⟩ →
    membersChecks check' (s.inCatalog c') a ms = ⟨n, .value checks⟩
  | [], n, checks, _, h => h
  | m :: ms, n, checks, ht, h => by
    obtain ⟨j, first, k, more, hfirst, hmore, rfl, rfl⟩ := membersChecks_cons h
    have hfirst := memberChecks_keeps hk hc (ht m (by simp)) hfirst
    have hmore := membersChecks_keeps hc (fun m' hm' => ht m' (by simp [hm'])) hmore
    exact bind_eq_value.2 ⟨j, first, k, hfirst, bind_pure_eq_value.2 ⟨more, hmore, rfl⟩, rfl⟩

theorem objectChecksWith_keeps (hc : s.catalog = c) {ms : List Member} {checks : List Check}
    (ht : ∀ m ∈ ms, ∀ t, m.type = some t → c.Occurs t)
    (h : objectChecksWith check s a ms = ⟨n, .value checks⟩) :
    objectChecksWith check' (s.inCatalog c') a ms = ⟨n, .value checks⟩ := by
  obtain ⟨k, made, hmade, rfl, rfl⟩ := objectChecksWith_eq_value h
  have hmade := membersChecks_keeps hk hc ht hmade
  exact bind_eq_value.2 ⟨_, (), k, rfl, bind_pure_eq_value.2 ⟨made, hmade, rfl⟩, rfl⟩

end

mutual

/-- Checks of a description are kept when those of the members are. -/
theorem checksWith_keeps (hk : KeepsChecks c c' check check') :
    ∀ {d : Description} {s : Scope} {a : Accessor} {n : Notes}
      {checks : List Check}, c.Arises d → s.catalog = c →
      checksWith check s a d = ⟨n, .value checks⟩ →
      checksWith check' (s.inCatalog c') a d = ⟨n, .value checks⟩
  | .classLike name ms, s, a, n, checks, hd, hc, h => by
    rw [checksWith] at h ⊢
    split_ifs at h with hdate hexp hgen
    · rw [if_pos hdate]
      exact h
    · rw [if_neg hdate, Scope.isExpanding_inCatalog, if_pos hexp, Scope.generates_inCatalog,
        if_pos hgen]
      exact h
    · exact absurd h fail_ne_value
    · rw [if_neg hdate, Scope.isExpanding_inCatalog, if_neg hexp]
      cases hd with
      | date => exact absurd rfl hdate
      | classLike hdecl =>
        exact objectChecksWith_keeps hk (s := s.expand _) hc hdecl.members_occur h
  | .alias name target, s, a, n, checks, hd, hc, h => by
    rw [checksWith] at h ⊢
    split_ifs at h with hexp
    · exact absurd h fail_ne_value
    · rw [Scope.isExpanding_inCatalog, if_neg hexp]
      cases hd with
      | named _ _ ho => exact checksWith_keeps hk (s := s.expand _) (.object ho) hc h
  | .object ms, s, a, n, checks, hd, hc, h => by
    rw [checksWith] at h ⊢
    cases hd with
    | object ho => exact objectChecksWith_keeps hk hc (fun _ hm _ ht => .property ho hm ht) h
  | .array element, s, a, n, checks, hd, hc, h => by
    obtain ⟨k, made, hmade, rfl, rfl⟩ := checksWith_array h
    cases hd with
    | array hd =>
      have hmade := checksWith_keeps hk hd hc hmade
      rw [checksWith]
      exact bind_eq_value.2 ⟨_, (), k, rfl, bind_pure_eq_value.2 ⟨made, hmade, rfl⟩, rfl⟩
  | .union ds, s, a, n, checks, hd, hc, h => by
    rw [checksWith] at h ⊢
    split_ifs at h ⊢ with hempty
    · exact absurd h fail_ne_value
    · obtain ⟨made, hmade, rfl⟩ := bind_pure_eq_value.1 h
      cases hd with
      | union hd => exact bind_pure_eq_value.2 ⟨made, checksOfAll_keeps hk hd hc hmade, rfl⟩
  | .literal _, s, a, n, checks, _, _, h => by
    rw [checksWith] at h ⊢
    exact h
  | .primitive _, s, a, n, checks, _, _, h => by
    rw [checksWith] at h ⊢
    exact h
  | .reference _, s, a, n, checks, _, _, h => by
    rw [checksWith] at h ⊢
    exact h
  | .unsupported _, s, a, n, checks, _, _, h => by
    rw [checksWith] at h
    exact absurd h fail_ne_value

theorem checksOfAll_keeps (hk : KeepsChecks c c' check check') :
    ∀ {ds : List Description} {s : Scope} {a : Accessor} {n : Notes}
      {made : List (List Check)}, (∀ d ∈ ds, c.Arises d) → s.catalog = c →
      checksOfAll check s a ds = ⟨n, .value made⟩ →
      checksOfAll check' (s.inCatalog c') a ds = ⟨n, .value made⟩
  | [], s, a, n, made, _, _, h => by
    rw [checksOfAll] at h ⊢
    exact h
  | d :: ds, s, a, n, made, hd, hc, h => by
    obtain ⟨j, first, k, more, hfirst, hmore, rfl, rfl⟩ := checksOfAll_cons h
    have hfirst := checksWith_keeps hk (hd d (by simp)) hc hfirst
    have hmore := checksOfAll_keeps hk (fun e he => hd e (by simp [he])) hc hmore
    rw [checksOfAll]
    exact bind_eq_value.2 ⟨j, first, k, hfirst, bind_pure_eq_value.2 ⟨more, hmore, rfl⟩, rfl⟩

end

/-- **Checks of declared types are kept**, also when they may pass through more members. -/
theorem keepsChecks_ofType (he : c'.Extends c) : ∀ {bound bound' : Nat}, bound ≤ bound' →
    KeepsChecks c c' (checksOfType bound) (checksOfType bound') := by
  intro bound
  induction bound with
  | zero =>
    intro bound' _ s a t n checks _ _ h
    exact absurd h endless_ne_value
  | succ bound ih =>
    intro bound' hle s a t n checks hc ht h
    obtain ⟨more, rfl⟩ : ∃ more, bound' = more + 1 := ⟨bound' - 1, by omega⟩
    obtain ⟨d, hd, hmade⟩ := checksOfType_succ h
    rw [hc] at hd
    have hkept := checksWith_keeps (ih (Nat.le_of_succ_le_succ hle))
      (Catalog.arises_of_describe ht hd) hc hmade
    rw [checksOfType]
    refine bind_eq_value.2 ⟨.empty, d, n, ?_, hkept, (Notes.empty_append n).symm⟩
    exact ofDescribed_eq_value.2 ⟨rfl, Catalog.describe_of_extends he ht hd⟩

/-! ## Defaults -/

/-- What `make` makes of a type of `c` for which `check` can make checks is made by `make'` in `c'`,
    unless it has no end. -/
def KeepsDefaults (c c' : Catalog)
    (check : Scope → Accessor → TypeExpr → Synthesis (List Check))
    (make make' : Scope → TypeExpr → Synthesis Expr) : Prop :=
  ∀ {s : Scope} {a : Accessor} {t : TypeExpr} {n : Notes} {checks : List Check}, s.catalog = c →
    c.Occurs t → check s a t = ⟨n, .value checks⟩ → (make s t).outcome ≠ .endless →
    make' (s.inCatalog c') t = make s t

section
variable (hk : KeepsDefaults c c' check make make')
include hk

theorem entryOf_keeps (hc : s.catalog = c) {m : Member} {checks : List Check}
    (ht : ∀ t, m.type = some t → c.Occurs t)
    (hchecks : memberChecks check s a m = ⟨n, .value checks⟩)
    (h : (entryOf make s m).outcome ≠ .endless) :
    entryOf make' (s.inCatalog c') m = entryOf make s m := by
  rcases memberChecks_eq_value hchecks with ⟨e, hp, -⟩ | ⟨name, t, made, hp, hmade, -⟩
  · unfold entryOf
    rw [hp]
    rfl
  · unfold entryOf at h ⊢
    rw [hp] at h ⊢
    have hinner : (make (s.within name) t).outcome ≠ .endless →
        make' ((s.within name).inCatalog c') t = make (s.within name) t :=
      hk (s := s.within name) hc (ht t (m.type_of_property? hp)) hmade
    exact bind_mono (attempt_mono hinner) (fun _ _ _ => rfl) h

theorem entriesOf_keeps (hc : s.catalog = c) : ∀ {ms : List Member} {n : Notes}
    {checks : List Check}, (∀ m ∈ ms, ∀ t, m.type = some t → c.Occurs t) →
    membersChecks check s a ms = ⟨n, .value checks⟩ →
    (entriesOf make s ms).outcome ≠ .endless →
    entriesOf make' (s.inCatalog c') ms = entriesOf make s ms
  | [], n, checks, _, _, _ => rfl
  | m :: ms, n, checks, ht, hchecks, h => by
    obtain ⟨j, first, k, more, hfirst, hmore, rfl, rfl⟩ := membersChecks_cons hchecks
    refine bind_mono (entryOf_keeps hk hc (ht m (by simp)) hfirst) (fun entry _ hrest => ?_) h
    refine bind_mono ?_ (fun _ _ _ => rfl) hrest
    exact entriesOf_keeps hc (fun m' hm' => ht m' (by simp [hm'])) hmore

/-- A record is kept when its object type can be checked. -/
theorem recordWith_keeps (hc : s.catalog = c) {ms : List Member} {checks : List Check}
    (ht : ∀ m ∈ ms, ∀ t, m.type = some t → c.Occurs t)
    (hchecks : objectChecksWith check s a ms = ⟨n, .value checks⟩) {spread cast : Option String}
    (h : (recordWith make s ms spread cast).outcome ≠ .endless) :
    recordWith make' (s.inCatalog c') ms spread cast = recordWith make s ms spread cast := by
  obtain ⟨k, made, hmade, rfl, rfl⟩ := objectChecksWith_eq_value hchecks
  exact bind_mono (entriesOf_keeps hk hc ht hmade) (fun _ _ _ => rfl) h

end

mutual

/-- The default of a description is kept when the description can be checked. -/
theorem defaultWith_keeps (hk : KeepsDefaults c c' check make make') :
    ∀ {d : Description} {s : Scope} {a : Accessor} {n : Notes}
      {checks : List Check}, c.Arises d → s.catalog = c →
      checksWith check s a d = ⟨n, .value checks⟩ → (defaultWith make s d).outcome ≠ .endless →
      defaultWith make' (s.inCatalog c') d = defaultWith make s d
  | .classLike name ms, s, a, n, checks, hd, hc, hchecks, h => by
    rw [checksWith] at hchecks
    rw [defaultWith] at h
    rw [defaultWith, defaultWith, Scope.isExpanding_inCatalog]
    by_cases hdate : name = Description.dateName
    · rw [if_pos hdate, if_pos hdate]
    · rw [if_neg hdate] at hchecks h
      rw [if_neg hdate, if_neg hdate]
      by_cases hexp : s.isExpanding name
      · rw [if_pos hexp, if_pos hexp]
      · rw [if_neg hexp] at hchecks h
        rw [if_neg hexp, if_neg hexp]
        by_cases hempty : ms.isEmpty
        · rw [if_pos hempty, if_pos hempty]
        · rw [if_neg hempty] at h
          rw [if_neg hempty, if_neg hempty]
          cases hd with
          | date => exact absurd rfl hdate
          | classLike hdecl =>
            exact recordWith_keeps hk (s := s.expand _) hc hdecl.members_occur hchecks h
  | .alias name target, s, a, n, checks, hd, hc, hchecks, h => by
    rw [checksWith] at hchecks
    rw [defaultWith] at h
    rw [defaultWith, defaultWith, Scope.isExpanding_inCatalog]
    by_cases hexp : s.isExpanding name
    · rw [if_pos hexp, if_pos hexp]
    · rw [if_neg hexp] at hchecks h
      rw [if_neg hexp, if_neg hexp]
      cases hd with
      | named _ _ ho => exact defaultWith_keeps hk (s := s.expand _) (.object ho) hc hchecks h
  | .object ms, s, a, n, checks, hd, hc, hchecks, h => by
    rw [checksWith] at hchecks
    rw [defaultWith] at h
    rw [defaultWith, defaultWith]
    cases hd with
    | object ho =>
      exact recordWith_keeps hk hc (fun _ hm _ ht => .property ho hm ht) hchecks h
  | .union ds, s, a, n, checks, hd, hc, hchecks, h => by
    obtain ⟨made, hmade, rfl⟩ := checksWith_union hchecks
    rw [defaultWith] at h
    rw [defaultWith, defaultWith]
    cases hd with
    | union hd => exact defaultOfFirst_keeps hk hd hc hmade h
  | .array _, s, a, n, checks, _, _, _, _ => by rw [defaultWith, defaultWith]
  | .literal _, s, a, n, checks, _, _, _, _ => by rw [defaultWith, defaultWith]
  | .primitive _, s, a, n, checks, _, _, _, _ => by rw [defaultWith, defaultWith]
  | .reference _, s, a, n, checks, _, _, _, _ => by rw [defaultWith, defaultWith]
  | .unsupported _, s, a, n, checks, _, _, _, _ => by rw [defaultWith, defaultWith]

theorem defaultOfFirst_keeps (hk : KeepsDefaults c c' check make make') :
    ∀ {ds : List Description} {s : Scope} {a : Accessor} {n : Notes}
      {made : List (List Check)}, (∀ d ∈ ds, c.Arises d) → s.catalog = c →
      checksOfAll check s a ds = ⟨n, .value made⟩ →
      (defaultOfFirst make s ds).outcome ≠ .endless →
      defaultOfFirst make' (s.inCatalog c') ds = defaultOfFirst make s ds
  | [], s, a, n, made, _, _, _, _ => by rw [defaultOfFirst, defaultOfFirst]
  | d :: ds, s, a, n, made, hd, hc, hchecks, h => by
    obtain ⟨j, first, k, more, hfirst, -, rfl, rfl⟩ := checksOfAll_cons hchecks
    rw [defaultOfFirst] at h
    rw [defaultOfFirst, defaultOfFirst]
    exact defaultWith_keeps hk (hd d (by simp)) hc hfirst h

end

/-- **Defaults of declared types are kept where the types can be checked**, also when they may pass
    through more members. -/
theorem keepsDefaults_ofType (he : c'.Extends c) : ∀ {bound bound' depth : Nat}, bound ≤ bound' →
    KeepsDefaults c c' (checksOfType depth) (defaultOfType bound) (defaultOfType bound') := by
  intro bound
  induction bound with
  | zero =>
    intro bound' depth _ s a t n checks _ _ _ h
    exact absurd rfl h
  | succ bound ih =>
    intro bound' depth hle s a t n checks hc ht hchecks h
    obtain ⟨more, rfl⟩ : ∃ more, bound' = more + 1 := ⟨bound' - 1, by omega⟩
    cases depth with
    | zero => exact absurd hchecks endless_ne_value
    | succ depth =>
      -- As the type could be checked it has a description, and the same in the other catalog.
      obtain ⟨d, hd, hmade⟩ := checksOfType_succ hchecks
      have hdc : c.describe t = .ok d := hc ▸ hd
      have hd' := Catalog.describe_of_extends he ht hdc
      rw [defaultOfType] at h
      rw [defaultOfType, defaultOfType]
      rw [show (s.inCatalog c').catalog = c' from rfl, hd', hd]
      rw [hd] at h
      refine bind_mono (fun _ => rfl) (fun e hval hrest => ?_) h
      obtain rfl : d = e := by cases hval; rfl
      exact defaultWith_keeps (ih (Nat.le_of_succ_le_succ hle)) (Catalog.arises_of_describe ht hdc)
        hc hmade hrest

end Synthesis

namespace Scope

variable {c c' : Catalog} {s : Scope} {a : Accessor} {n : Notes}

/-- **Checks that could be made stay as they are** when more is declared. -/
theorem objectChecksOf_of_extends (he : c'.Extends c) (hc : s.catalog = c) {ms : List Member}
    (ht : ∀ m ∈ ms, ∀ t, m.type = some t → c.Occurs t) {checks : List Check}
    (h : s.objectChecksOf a ms = ⟨n, .value checks⟩) :
    (s.inCatalog c').objectChecksOf a ms = ⟨n, .value checks⟩ := by
  subst hc
  have hle := Catalog.expansionBound_le he (TypeExpr.sizeOfMembers ms)
  exact Synthesis.objectChecksWith_keeps (Synthesis.keepsChecks_ofType he hle) rfl ht h

/-- **A record stays as it is** when more is declared, if its object type could be checked. -/
theorem recordOf_of_extends (he : c'.Extends c) (hc : s.catalog = c) {ms : List Member}
    (ht : ∀ m ∈ ms, ∀ t, m.type = some t → c.Occurs t) {checks : List Check}
    (hchecks : s.objectChecksOf a ms = ⟨n, .value checks⟩) {spread cast : Option String}
    (h : (s.recordOf ms spread cast).outcome ≠ .endless) :
    (s.inCatalog c').recordOf ms spread cast = s.recordOf ms spread cast := by
  subst hc
  have hle := Catalog.expansionBound_le he (TypeExpr.sizeOfMembers ms)
  exact Synthesis.recordWith_keeps (Synthesis.keepsDefaults_ofType he hle) rfl ht hchecks h

end Scope

end InterfaceGuards
