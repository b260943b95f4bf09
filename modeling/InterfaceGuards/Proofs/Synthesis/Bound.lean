/-
  How deep an expansion goes that has an end.

  * `Synthesis.Same`: the same synthesis, or two without end.
  * `Synthesis.Deepening`: syntheses within a number of calls, each made by calls of those within
    one less; `Deepening.descend` follows the calls of one that barely ends, `Deepening.endless`
    shows that there is no end where calls repeat.
  * `Scope.exists_beside`: a long descent comes to the same type with the same names being expanded.
  * `Catalog.reach`, `reach_le_expansionBound`: how many calls go before that, and that the bound on
    expansions allows for them.
  * `recordOf_endless`, `objectChecksOf_endless`: what has no end within the bound has none at all.
-/
import InterfaceGuards.Proofs.Synthesis.Depth
import Mathlib.Data.Finset.Prod

namespace InterfaceGuards

open Script (Accessor Check Expr)

namespace Synthesis

variable {α β ι : Type}

/-- The two are the same, or neither has an end. -/
def Same (x y : Synthesis α) : Prop := x = y ∨ x.outcome = .endless ∧ y.outcome = .endless

namespace Same

variable {x y : Synthesis α}

theorem endless (h : Same x y) (hx : x.outcome = .endless) : y.outcome = .endless := by
  rcases h with rfl | ⟨-, hy⟩
  · exact hx
  · exact hy

theorem eq (h : Same x y) (hx : x.outcome ≠ .endless) : y = x := by
  rcases h with rfl | ⟨hend, -⟩
  · rfl
  · exact absurd hend hx

end Same

/-- What is made by calls is the same if all that is called is. -/
theorem Steady.same {Called : ι → Prop} {F : (ι → Synthesis β) → Synthesis α} (hF : Steady Called F)
    {f g : ι → Synthesis β} (h : ∀ i, Called i → Same (f i) (g i)) : Same (F f) (F g) := by
  have hfg : GoesAsFar Called f g := fun i hi => (h i hi).eq
  by_cases hend : (F f).outcome = .endless
  · obtain ⟨i, hi, hfi, hblame⟩ := hF.blame hend
    exact .inr ⟨hend, hblame g hfg ((h i hi).endless hfi)⟩
  · exact .inl (hF.mono hfg hend).symm

/-! ## Descents -/

/-- Syntheses within a number of calls: none ends without any, and within one more they are made by
    calls of those within one less. -/
structure Deepening (Fit : ι → Prop) (Calls : ι → ι → Prop) (run : Nat → ι → Synthesis β) :
    Prop where
  zero : ∀ i, (run 0 i).outcome = .endless
  succ : ∀ i, Fit i → ∃ F, Steady (Calls i) F ∧ ∀ n, run (n + 1) i = F (run n)
  fit : ∀ i j, Fit i → Calls i j → Fit j

namespace Deepening

variable {Fit : ι → Prop} {Calls : ι → ι → Prop} {run : Nat → ι → Synthesis β} {i : ι} {m n : Nat}

theorem mono (h : Deepening Fit Calls run) (hmn : m ≤ n) (hi : Fit i)
    (hend : (run m i).outcome ≠ .endless) : run n i = run m i := by
  induction m generalizing n i with
  | zero => exact absurd (h.zero i) hend
  | succ m ih =>
    obtain ⟨n, rfl⟩ := Nat.exists_eq_add_of_le' hmn
    obtain ⟨F, hF, hrun⟩ := h.succ i hi
    rw [← Nat.add_assoc, hrun, hrun]
    rw [hrun] at hend
    exact hF.mono (fun j hj => ih (by omega) (h.fit i j hi hj)) hend

theorem endless_of_le (h : Deepening Fit Calls run) (hmn : m ≤ n) (hi : Fit i)
    (hend : (run n i).outcome = .endless) : (run m i).outcome = .endless := by
  by_contra hm
  rw [h.mono hmn hi hm] at hend
  exact hm hend

/-- **A synthesis that ends within `n + 1` calls but not within `n`** makes a call that ends within
    `n` but not within fewer, and so on down to one that makes no call. -/
theorem descend (h : Deepening Fit Calls run) (hi : Fit i) (hn : (run n i).outcome = .endless)
    (hsucc : (run (n + 1) i).outcome ≠ .endless) :
    ∃ js : Nat → ι, js n = i ∧ (∀ k < n, Calls (js (k + 1)) (js k)) ∧ ∀ k ≤ n, Fit (js k) ∧
      (run k (js k)).outcome = .endless ∧ (run (k + 1) (js k)).outcome ≠ .endless := by
  induction n generalizing i with
  | zero =>
    refine ⟨fun _ => i, rfl, by omega, fun k hk => ?_⟩
    obtain rfl : k = 0 := by omega
    exact ⟨hi, hn, hsucc⟩
  | succ n ih =>
    obtain ⟨F, hF, hrun⟩ := h.succ i hi
    obtain ⟨j, hj, hend, hblame⟩ := hF.blame (hrun n ▸ hn)
    have hfit := h.fit i j hi hj
    have hfar : GoesAsFar (Calls i) (run n) (run (n + 1)) := fun k hk hend =>
      h.mono (Nat.le_succ n) (h.fit i k hi hk) hend
    have hends : (run (n + 1) j).outcome ≠ .endless := fun hj =>
      hsucc ((hrun (n + 1)).symm ▸ hblame (run (n + 1)) hfar hj)
    obtain ⟨js, hlast, hcalls, hjs⟩ := ih hfit hend hends
    refine ⟨Function.update js (n + 1) i, Function.update_self .., ?_, ?_⟩
    · intro k hk
      rw [Function.update_of_ne (show k ≠ n + 1 by omega)]
      by_cases hkn : k = n
      · subst hkn
        rwa [Function.update_self, hlast]
      · rw [Function.update_of_ne (by omega)]
        exact hcalls k (by omega)
    · intro k hk
      by_cases hkn : k = n + 1
      · subst hkn
        rw [Function.update_self]
        exact ⟨hi, hn, hsucc⟩
      · rw [Function.update_of_ne hkn]
        exact hjs k (by omega)

/-- **Where every descent of some length repeats itself**, what has no end within so many calls has
    none within any number of them. -/
theorem endless (h : Deepening Fit Calls run) {reach : Nat}
    (repeats : ∀ (n : Nat) (js : Nat → ι), reach ≤ n → (∀ k ≤ n, Fit (js k)) →
      (∀ k < n, Calls (js (k + 1)) (js k)) →
      ∃ k l, k < l ∧ l ≤ n ∧
        ∀ m, (run m (js l)).outcome = .endless → (run m (js k)).outcome = .endless)
    (hi : Fit i) (hn : reach ≤ n) (hend : (run n i).outcome = .endless) (m : Nat) :
    (run m i).outcome = .endless := by
  rcases Nat.le_total m n with hm | hm
  · exact h.endless_of_le hm hi hend
  · induction m, hm using Nat.le_induction with
    | base => exact hend
    | succ m hm ih =>
      by_contra hsucc
      obtain ⟨js, -, hcalls, hjs⟩ := h.descend hi ih hsucc
      obtain ⟨k, l, hkl, hlm, hrepeat⟩ :=
        repeats m js (hn.trans hm) (fun k hk => (hjs k hk).1) hcalls
      obtain ⟨hfit, hl, -⟩ := hjs l hlm
      obtain ⟨-, -, hk⟩ := hjs k (by omega)
      exact hk (hrepeat (k + 1) (h.endless_of_le hkl hfit hl))

theorem same (h : Deepening Fit Calls run) {reach : Nat}
    (hall : ∀ i n, Fit i → reach ≤ n → (run n i).outcome = .endless →
      ∀ m, (run m i).outcome = .endless)
    (hi : Fit i) (hm : reach ≤ m) (hn : reach ≤ n) : Same (run m i) (run n i) := by
  by_cases hend : (run m i).outcome = .endless
  · exact .inr ⟨hend, hall i m hi hm hend n⟩
  · have hend' : (run n i).outcome ≠ .endless := fun h' => hend (hall i n hi hn h' m)
    rcases Nat.le_total m n with hmn | hmn
    · exact .inl (h.mono hmn hi hend).symm
    · exact .inl (h.mono hmn hi hend')

/-- What has no end when its calls are made within enough calls has none whatever they are made
    within. -/
theorem endless_of_steady (h : Deepening Fit Calls run) {Called : ι → Prop}
    {F : (ι → Synthesis β) → Synthesis α} (hF : Steady Called F) (hfit : ∀ i, Called i → Fit i)
    {reach : Nat} (hsame : ∀ m, reach ≤ m → ∀ i, Called i → Same (run n i) (run m i))
    (hn : reach ≤ n) (hend : (F (run n)).outcome = .endless) (m : Nat) :
    (F (run m)).outcome = .endless := by
  rcases Nat.le_total m n with hmn | hmn
  · by_contra hm
    rw [hF.mono (fun i hi => h.mono hmn (hfit i hi)) hm] at hend
    exact hm hend
  · exact (hF.same (hsame m (hn.trans hmn))).endless hend

end Deepening

end Synthesis

/-! ## Scopes -/

namespace Scope

variable {s s' : Scope}

theorem Inside.length_le (h : s.Inside s') : s.expanding.length ≤ s'.expanding.length ∧
    s'.expanding.length ≤ s.expanding.length + s.catalog.names.length := by
  obtain ⟨-, -, names, hnames, hnodup, hfresh⟩ := h
  have := (List.subperm_of_subset hnodup fun n hn => (hfresh n hn).2).length_le
  rw [hnames, List.length_append]
  omega

theorem Inside.beside (h : s.Inside s') (hlength : s'.expanding.length = s.expanding.length) :
    s.Beside s' := by
  obtain ⟨hcatalog, hunit, names, hnames, -, -⟩ := h
  rw [hnames, List.length_append] at hlength
  obtain rfl : names = [] := List.length_eq_zero_iff.1 (by omega)
  exact ⟨hcatalog, hunit, hnames⟩

end Scope

/-- How many calls an expansion makes, one inside the other, before it comes to the same type with
    the same names being expanded. -/
def Catalog.reach (c : Catalog) : Nat := (c.names.length + 1) * c.parts.length

/-- **The bound on expansions allows for as many calls.** -/
theorem Catalog.reach_le_expansionBound (c : Catalog) (size : Nat) :
    c.reach ≤ c.expansionBound size := by
  have hnames := c.length_names_le
  have hparts := c.length_parts_le
  exact Nat.mul_le_mul (by omega) (by omega)

/-- **A long descent repeats itself.** -/
theorem Scope.exists_beside {c : Catalog} {scopes : Nat → Scope} {types : Nat → TypeExpr} {n : Nat}
    (hcatalog : ∀ k ≤ n, (scopes k).catalog = c) (htypes : ∀ k ≤ n, c.Occurs (types k))
    (hinside : ∀ k < n, (scopes (k + 1)).Inside (scopes k)) (hn : c.reach ≤ n) :
    ∃ k l, k < l ∧ l ≤ n ∧ types k = types l ∧ (scopes l).Beside (scopes k) := by
  classical
  have nested : ∀ {k l}, k ≤ l → l ≤ n → (scopes l).Inside (scopes k) := by
    intro k l hkl
    induction l, hkl using Nat.le_induction with
    | base => exact fun _ => .refl _
    | succ l _ ih => exact fun hl => (hinside l hl).trans (ih (by omega))
  let key (k : Nat) := ((scopes k).expanding.length - (scopes n).expanding.length, types k)
  have hkeys : Set.MapsTo key (Finset.range (n + 1))
      (Finset.range (c.names.length + 1) ×ˢ c.parts.toFinset : Finset (Nat × TypeExpr)) := by
    intro k hk
    have hk : k ≤ n := Nat.lt_succ_iff.1 (Finset.mem_range.1 hk)
    have := (nested hk le_rfl).length_le
    rw [hcatalog n le_rfl] at this
    refine Finset.mem_product.2 ⟨Finset.mem_range.2 ?_, List.mem_toFinset.2 (htypes k hk).mem_parts⟩
    show _ - _ < _
    omega
  have hcard : (Finset.range (c.names.length + 1) ×ˢ c.parts.toFinset).card <
      (Finset.range (n + 1)).card := by
    rw [Finset.card_product, Finset.card_range, Finset.card_range]
    have := Nat.mul_le_mul_left (c.names.length + 1) c.parts.toFinset_card_le
    exact Nat.lt_succ_of_le (this.trans hn)
  have meet : ∀ {k l}, k < l → l ≤ n → key k = key l →
      ∃ k l, k < l ∧ l ≤ n ∧ types k = types l ∧ (scopes l).Beside (scopes k) := by
    intro k l hkl hl hkey
    obtain ⟨hlength, htype⟩ := Prod.mk.inj hkey
    have := (nested hl le_rfl).length_le
    have := (nested (hkl.le.trans hl) le_rfl).length_le
    exact ⟨k, l, hkl, hl, htype, (nested hkl.le hl).beside (by omega)⟩
  obtain ⟨k, hk, l, hl, hne, hkey⟩ := Finset.exists_ne_map_eq_of_card_lt_of_maps_to hcard hkeys
  have hk : k ≤ n := Nat.lt_succ_iff.1 (Finset.mem_range.1 hk)
  have hl : l ≤ n := Nat.lt_succ_iff.1 (Finset.mem_range.1 hl)
  rcases Nat.lt_or_gt_of_ne hne with hlt | hgt
  · exact meet hlt hl hkey
  · exact meet hgt hk hkey.symm

namespace Synthesis

variable {c : Catalog} {s : Scope} {a : Accessor} {m n : Nat}

theorem endless_of_void_eq {α : Type} {o o' : Outcome α} (h : o.void = o'.void) :
    o = .endless → o' = .endless := by
  rintro rfl
  cases o' with
  | endless => rfl
  | value _ => cases h
  | error _ => cases h

/-! ## Checks -/

theorem deepening_checks (c : Catalog) :
    Deepening (fun i : Scope × Accessor × TypeExpr => i.1.catalog = c ∧ c.Occurs i.2.2)
      (fun i => CalledForChecks i.1) fun n i => checksOfType n i.1 i.2.1 i.2.2 where
  zero _ := rfl
  succ := by
    rintro ⟨s, a, t⟩ ⟨rfl, ht⟩
    exact ⟨_, steady_checksOfType ht, fun _ => rfl⟩
  fit := by
    rintro ⟨s, a, t⟩ ⟨s', a', t'⟩ ⟨rfl, -⟩ ⟨hinside, ht⟩
    exact ⟨hinside.catalog, ht⟩

theorem checksOfType_endless {t : TypeExpr} (ht : s.catalog.Occurs t) (hn : s.catalog.reach ≤ n)
    (hend : (checksOfType n s a t).outcome = .endless) (m : Nat) :
    (checksOfType m s a t).outcome = .endless := by
  refine (deepening_checks s.catalog).endless (i := (s, a, t)) ?_ ⟨rfl, ht⟩ hn hend m
  intro n js hn hfit hcalls
  obtain ⟨k, l, hkl, hln, htype, hbeside⟩ := Scope.exists_beside (fun k hk => (hfit k hk).1)
    (fun k hk => (hfit k hk).2) (fun k hk => (hcalls k hk).1) hn
  refine ⟨k, l, hkl, hln, fun m => endless_of_void_eq ?_⟩
  rw [htype]
  exact (void_checksOfType m _ _ _ _ _ hbeside).symm

theorem same_checksOfType (hm : s.catalog.reach ≤ m) (hn : s.catalog.reach ≤ n) :
    ∀ i, CalledForChecks s i →
      Same (checksOfType m i.1 i.2.1 i.2.2) (checksOfType n i.1 i.2.1 i.2.2) := by
  rintro ⟨s', a, t⟩ ⟨hinside, ht⟩
  refine (deepening_checks s.catalog).same ?_ ⟨hinside.catalog, ht⟩ hm hn
  rintro ⟨s', a, t⟩ n ⟨hcatalog, ht⟩ hn hend
  rw [← hcatalog] at ht hn
  exact checksOfType_endless ht hn hend

/-- Any two bounds that allow for enough calls make the same checks of an object. -/
theorem same_objectChecksWith {ms : List Member}
    (hms : ∀ member ∈ ms, ∀ t, member.type = some t → s.catalog.Occurs t)
    (hm : s.catalog.reach ≤ m) (hn : s.catalog.reach ≤ n) :
    Same (objectChecksWith (checksOfType m) s a ms) (objectChecksWith (checksOfType n) s a ms) :=
  (steady_objectChecksWith hms).same (same_checksOfType hm hn)

/-! ## Defaults -/

theorem deepening_defaults (c : Catalog) :
    Deepening (fun i : Scope × TypeExpr => i.1.catalog = c ∧ c.Occurs i.2)
      (fun i => CalledForDefaults i.1) fun n i => defaultOfType n i.1 i.2 where
  zero _ := rfl
  succ := by
    rintro ⟨s, t⟩ ⟨rfl, ht⟩
    exact ⟨_, steady_defaultOfType ht, fun _ => rfl⟩
  fit := by
    rintro ⟨s, t⟩ ⟨s', t'⟩ ⟨rfl, -⟩ ⟨hinside, ht⟩
    exact ⟨hinside.catalog, ht⟩

theorem defaultOfType_endless {t : TypeExpr} (ht : s.catalog.Occurs t) (hn : s.catalog.reach ≤ n)
    (hend : (defaultOfType n s t).outcome = .endless) (m : Nat) :
    (defaultOfType m s t).outcome = .endless := by
  refine (deepening_defaults s.catalog).endless (i := (s, t)) ?_ ⟨rfl, ht⟩ hn hend m
  intro n js hn hfit hcalls
  obtain ⟨k, l, hkl, hln, htype, hbeside⟩ := Scope.exists_beside (fun k hk => (hfit k hk).1)
    (fun k hk => (hfit k hk).2) (fun k hk => (hcalls k hk).1) hn
  refine ⟨k, l, hkl, hln, fun m => endless_of_void_eq ?_⟩
  rw [htype]
  exact (void_defaultOfType m _ _ _ hbeside).symm

theorem same_defaultOfType (hm : s.catalog.reach ≤ m) (hn : s.catalog.reach ≤ n) :
    ∀ i, CalledForDefaults s i → Same (defaultOfType m i.1 i.2) (defaultOfType n i.1 i.2) := by
  rintro ⟨s', t⟩ ⟨hinside, ht⟩
  refine (deepening_defaults s.catalog).same ?_ ⟨hinside.catalog, ht⟩ hm hn
  rintro ⟨s', t⟩ n ⟨hcatalog, ht⟩ hn hend
  rw [← hcatalog] at ht hn
  exact defaultOfType_endless ht hn hend

/-- Any two bounds that allow for enough calls make the same record. -/
theorem same_recordWith {ms : List Member} {spread cast : Option String}
    (hms : ∀ member ∈ ms, ∀ t, member.type = some t → s.catalog.Occurs t)
    (hm : s.catalog.reach ≤ m) (hn : s.catalog.reach ≤ n) :
    Same (recordWith (defaultOfType m) s ms spread cast)
      (recordWith (defaultOfType n) s ms spread cast) :=
  (steady_recordWith hms).same (same_defaultOfType hm hn)

end Synthesis

/-! ## Expansions without end -/

namespace Scope

variable {s : Scope} {ms : List Member}
  (hms : ∀ member ∈ ms, ∀ t, member.type = some t → s.catalog.Occurs t)
include hms

/-- **A record that has no end within the bound has none at all.** -/
theorem recordOf_endless {spread cast : Option String}
    (hend : (s.recordOf ms spread cast).outcome = .endless) (n : Nat) :
    (Synthesis.recordWith (Synthesis.defaultOfType n) s ms spread cast).outcome = .endless := by
  have hbound := s.catalog.reach_le_expansionBound (TypeExpr.sizeOfMembers ms)
  refine Synthesis.Deepening.endless_of_steady (Synthesis.deepening_defaults s.catalog)
    (Synthesis.steady_recordWith hms) (fun i hi => ⟨hi.1.catalog, hi.2⟩) ?_ hbound hend n
  exact fun m hm => Synthesis.same_defaultOfType hbound hm

/-- **Checks of an object that have no end within the bound have none at all.** -/
theorem objectChecksOf_endless {a : Accessor}
    (hend : (s.objectChecksOf a ms).outcome = .endless) (n : Nat) :
    (Synthesis.objectChecksWith (Synthesis.checksOfType n) s a ms).outcome = .endless := by
  have hbound := s.catalog.reach_le_expansionBound (TypeExpr.sizeOfMembers ms)
  refine Synthesis.Deepening.endless_of_steady (Synthesis.deepening_checks s.catalog)
    (Synthesis.steady_objectChecksWith hms) (fun i hi => ⟨hi.1.catalog, hi.2⟩) ?_ hbound hend n
  exact fun m hm => Synthesis.same_checksOfType hbound hm

end Scope

end InterfaceGuards
