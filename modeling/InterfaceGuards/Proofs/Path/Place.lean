/-
  The places that paths lead to.

  * `Path.place`: the place that the steps of a path lead to, whatever is there.
  * `Path.way`: the places that are passed from the root on, the last one included.
  * `normalSteps_eq`: the normal form of an absolute path spells its place.
  * `place_absoluteFrom`: a path seen from the root leads to the same place.
  * `startsWith_iff_of_partsPlainly`: the steps of a path begin with those of another as soon as
    its place lies there, if behind the steps they share no step leads upwards.
-/
import InterfaceGuards.FileTree
import InterfaceGuards.Proofs.Path.Spelling

namespace InterfaceGuards

namespace Path

open FileTree (stepOf stepsOf)
open Text (splitOn)

variable {p q : Path} {here there : Location} {steps cs ds : List Component}

/-! ## Following steps -/

/-- The place that a step leads to, if there is a directory to take it from. -/
def Component.follow (here : Location) : Component → Location
  | .root => []
  | .current => here
  | .parent => here.dropLast
  | .name text => here ++ [text]

/-- The places that are passed on the way along several steps, from the first to the last. -/
def Component.passed (here : Location) (steps : List Component) : List Location :=
  steps.scanl Component.follow here

/-- The place that a path leads to from the root. -/
def place (p : Path) : Location := (stepsOf p).foldl Component.follow []

/-- The places that a path passes from the root on. -/
def way (p : Path) : List Location := Component.passed [] (stepsOf p)

namespace Component

theorem passed_cons (c : Component) :
    passed here (c :: steps) = here :: passed (follow here c) steps := List.scanl_cons

theorem mem_passed_iff :
    there ∈ passed here steps ↔ ∃ taken, taken <+: steps ∧ taken.foldl follow here = there := by
  induction steps generalizing here with
  | nil =>
    constructor
    · intro h
      have hhere : there = here := by simpa [passed] using h
      exact ⟨[], List.prefix_rfl, hhere.symm⟩
    · rintro ⟨taken, htaken, rfl⟩
      simp [passed, List.prefix_nil.1 htaken]
  | cons c steps ih =>
    rw [passed_cons, List.mem_cons, ih]
    constructor
    · rintro (rfl | ⟨taken, htaken, rfl⟩)
      · exact ⟨[], List.nil_prefix, rfl⟩
      · exact ⟨c :: taken, (List.prefix_cons_inj c).2 htaken, rfl⟩
    · rintro ⟨taken, htaken, rfl⟩
      cases taken with
      | nil => exact .inl rfl
      | cons d taken =>
        obtain ⟨rfl, hrest⟩ := List.cons_prefix_cons.1 htaken
        exact .inr ⟨taken, hrest, rfl⟩

theorem mem_passed_self : here ∈ passed here steps :=
  mem_passed_iff.2 ⟨[], List.nil_prefix, rfl⟩

theorem foldl_mem_passed : steps.foldl follow here ∈ passed here steps :=
  mem_passed_iff.2 ⟨steps, List.prefix_rfl, rfl⟩

theorem mem_passed_append : there ∈ passed here (cs ++ ds) ↔
    there ∈ passed here cs ∨ there ∈ passed (cs.foldl follow here) ds := by
  induction cs generalizing here with
  | nil =>
    simp only [List.nil_append, List.foldl_nil]
    constructor
    · exact .inr
    · rintro (h | h)
      · have hhere : there = here := by simpa [passed] using h
        rw [hhere]
        exact mem_passed_self
      · exact h
  | cons c cs ih => simp only [List.cons_append, passed_cons, List.mem_cons, ih, List.foldl_cons,
      or_assoc]

/-- Steps that stay where they are change no way. -/
theorem mem_passed_filter :
    there ∈ passed here (steps.filter (· ≠ .current)) ↔ there ∈ passed here steps := by
  induction steps generalizing here with
  | nil => rfl
  | cons c steps ih =>
    by_cases hc : c = .current
    · subst hc
      rw [List.filter_cons_of_neg (by simp), ih, passed_cons, List.mem_cons]
      constructor
      · exact .inr
      · rintro (rfl | h)
        · exact mem_passed_self
        · exact h
    · rw [List.filter_cons_of_pos (by simpa using hc), passed_cons, passed_cons, List.mem_cons,
        List.mem_cons, ih]

theorem foldl_follow_filter :
    (steps.filter (· ≠ .current)).foldl follow here = steps.foldl follow here := by
  induction steps generalizing here with
  | nil => rfl
  | cons c steps ih =>
    by_cases hc : c = .current
    · subst hc
      rw [List.filter_cons_of_neg (by simp), ih]
      rfl
    · rw [List.filter_cons_of_pos (by simpa using hc), List.foldl_cons, List.foldl_cons, ih]

theorem foldl_follow_names (names : List String) :
    (names.map Component.name).foldl follow here = here ++ names := by
  induction names generalizing here with
  | nil => simp
  | cons n names ih => simp [ih, follow]

/-- Along names all places are below the first. -/
theorem mem_passed_names {names : List String} :
    there ∈ passed here (names.map Component.name) ↔
      ∃ first, first <+: names ∧ here ++ first = there := by
  rw [mem_passed_iff]
  constructor
  · rintro ⟨taken, htaken, rfl⟩
    obtain ⟨first, hfirst, rfl⟩ := List.prefix_map_iff.1 htaken
    exact ⟨first, hfirst, (foldl_follow_names first).symm⟩
  · rintro ⟨first, hfirst, rfl⟩
    exact ⟨first.map .name, hfirst.map _, foldl_follow_names first⟩

end Component

open Component (follow passed)

theorem place_mem_way : p.place ∈ p.way := Component.foldl_mem_passed

theorem ne_nil_of_not_mem_way {names : List String} (h : p.place ++ names ∉ p.way) :
    names ≠ [] := by
  rintro rfl
  rw [List.append_nil] at h
  exact h place_mem_way

/-! ## Steps as they are followed -/

theorem filterMap_componentOf? (segments : List (List Char)) :
    segments.filterMap componentOf? = (segments.map stepOf).filter (· ≠ .current) := by
  induction segments with
  | nil => rfl
  | cons s segments ih =>
    rw [List.map_cons]
    by_cases hnone : s = [] ∨ s = ['.']
    · rw [List.filterMap_cons_none (by simp [componentOf?, hnone]), ih,
        List.filter_cons_of_neg (by simp [stepOf, hnone])]
    · by_cases hparent : s = ['.', '.']
      · rw [List.filterMap_cons_some (b := .parent) (by simp [componentOf?, hparent]), ih,
          List.filter_cons_of_pos (by simp [stepOf, hparent])]
        simp [stepOf, hparent]
      · rw [List.filterMap_cons_some (b := .name (String.ofList s))
          (by simp [componentOf?, hnone, hparent]), ih,
          List.filter_cons_of_pos (by simp [stepOf, hnone, hparent])]
        simp [stepOf, hnone, hparent]

/-- The steps of an absolute path are followed as they are, but for those that stay. -/
theorem components_eq_stepsOf (h : p.isAbsolute) :
    p.components = .root :: (stepsOf p).filter (· ≠ .current) := by
  obtain ⟨body, hbody, hsplit⟩ := exists_splitLead h
  have hsteps : stepsOf p = .current :: (splitOn '/' body).map stepOf := by
    simp [stepsOf, hbody, splitOn, stepOf]
  rw [components_eq, hsplit, hsteps, filterMap_componentOf?]
  simp [Lead.components]

theorem place_eq_foldl (h : p.isAbsolute) (hc : p.components = .root :: cs) :
    p.place = cs.foldl follow [] := by
  rw [components_eq_stepsOf h] at hc
  rw [← (List.cons.inj hc).2, Component.foldl_follow_filter]
  rfl

theorem mem_way_iff (h : p.isAbsolute) (hc : p.components = .root :: cs) :
    there ∈ p.way ↔ there ∈ passed [] cs := by
  rw [components_eq_stepsOf h] at hc
  rw [← (List.cons.inj hc).2, Component.mem_passed_filter]
  rfl

/-! ## Normal forms -/

/-- The steps that spell a place, the last one first. -/
def takenTo (place : Location) : List Component := (place.map Component.name).reverse ++ [.root]

theorem resolve_takenTo {c : Component} (hc : c.IsStep) :
    Component.resolve (takenTo here) c = takenTo (follow here c) := by
  cases c with
  | root => exact absurd rfl hc.ne_root
  | current => exact absurd rfl hc.ne_current
  | parent =>
    rcases List.eq_nil_or_concat here with rfl | ⟨before, n, rfl⟩
    · rfl
    · simp [takenTo, Component.resolve, follow]
  | name text => simp [takenTo, Component.resolve, follow]

theorem foldl_resolve (h : ∀ c ∈ cs, c.IsStep) :
    cs.foldl Component.resolve (takenTo here) = takenTo (cs.foldl follow here) := by
  induction cs generalizing here with
  | nil => rfl
  | cons c cs ih =>
    rw [List.foldl_cons, resolve_takenTo (h c (by simp)), ih fun c hc => h c (by simp [hc])]
    rfl

/-- **The normal form of an absolute path spells the place that it leads to.** -/
theorem normalSteps_eq (h : p.isAbsolute) : p.normalSteps = .root :: p.place.map .name := by
  obtain ⟨cs, hc, hcs⟩ := components_of_isAbsolute h
  have hfold : p.components.foldl Component.resolve [] = takenTo (cs.foldl follow []) := by
    rw [hc, List.foldl_cons, ← foldl_resolve hcs]
    rfl
  rw [normalSteps, hfold, place_eq_foldl h hc]
  simp [takenTo]

/-- One normal form continues another exactly when one place is below the other. -/
theorem normalSteps_prefix_iff (hp : p.isAbsolute) (hq : q.isAbsolute) :
    p.normalSteps <+: q.normalSteps ↔ p.place <+: q.place := by
  rw [normalSteps_eq hp, normalSteps_eq hq, List.prefix_cons_inj]
  exact List.prefix_map_iff_of_injective fun a b h => Component.name.inj h

/-- Absolute paths have one normal form if they lead to one place. -/
theorem normalSteps_eq_iff (hp : p.isAbsolute) (hq : q.isAbsolute) :
    p.normalSteps = q.normalSteps ↔ p.place = q.place := by
  rw [normalSteps_eq hp, normalSteps_eq hq, List.cons.injEq]
  simp only [true_and]
  exact (List.map_injective_iff.2 fun a b hab => Component.name.inj hab).eq_iff

/-! ## Paths seen from the root -/

variable {dir : Path}

theorem absoluteFrom_eq (h : dir.isAbsolute) (p : Path) :
    ∃ cs, (∀ c ∈ cs, c.IsStep) ∧ (dir.join p).components = .root :: cs ∧
      p.absoluteFrom dir = ofComponents (.root :: cs) := by
  obtain ⟨cs, hc, hcs⟩ := components_of_isAbsolute (isAbsolute_join h p)
  refine ⟨cs, hcs, hc, ?_⟩
  have hfilter : (Component.root :: cs).filter (· ≠ .current) = .root :: cs := by
    rw [List.filter_cons_of_pos (by simp), List.filter_eq_self.2]
    intro c hc
    simpa using (hcs c hc).ne_current
  rw [absoluteFrom, hc, hfilter]

theorem isAbsolute_absoluteFrom (h : dir.isAbsolute) (p : Path) :
    (p.absoluteFrom dir).isAbsolute := by
  obtain ⟨cs, hcs, -, heq⟩ := absoluteFrom_eq h p
  rw [heq]
  exact isAbsolute_ofComponents hcs

/-- **Seen from the root, a path leads to the same place.** -/
theorem place_absoluteFrom (h : dir.isAbsolute) (p : Path) :
    (p.absoluteFrom dir).place = (dir.join p).place := by
  obtain ⟨cs, hcs, hc, heq⟩ := absoluteFrom_eq h p
  rw [heq, place_eq_foldl (isAbsolute_join h p) hc,
    place_eq_foldl (isAbsolute_ofComponents hcs) (components_root hcs)]

/-! ## Parting -/

/-- Behind the steps that two paths share, none of them leads upwards. -/
def PartsPlainly (p q : Path) : Prop :=
  let shared := commonLength p.components q.components
  Component.parent ∉ p.components.drop shared ∧ Component.parent ∉ q.components.drop shared

instance (p q : Path) : Decidable (p.PartsPlainly q) :=
  inferInstanceAs (Decidable (_ ∧ _))

theorem take_commonLength : ∀ as bs : List Component,
    as.take (commonLength as bs) = bs.take (commonLength as bs)
  | [], _ => by simp [commonLength]
  | _ :: _, [] => by simp [commonLength]
  | a :: as, b :: bs => by
    by_cases hab : a = b
    · simp [commonLength, hab, take_commonLength as bs]
    · simp [commonLength, hab]

/-- Steps of which none leads upwards are names. -/
theorem eq_names_of_not_parent (hcs : ∀ c ∈ cs, c.IsStep) (h : Component.parent ∉ cs) :
    ∃ names : List String, cs = names.map .name := by
  induction cs with
  | nil => exact ⟨[], rfl⟩
  | cons c cs ih =>
    obtain ⟨names, rfl⟩ := ih (fun c hc => hcs c (by simp [hc])) fun hm => h (by simp [hm])
    have hc := hcs c (by simp)
    cases c with
    | root => exact absurd rfl hc.ne_root
    | current => exact absurd rfl hc.ne_current
    | parent => exact absurd (List.mem_cons_self ..) h
    | name text => exact ⟨text :: names, rfl⟩

/-- **The steps of a path begin with those of another exactly when its normal form does**, if behind
    the steps they share no step leads upwards. -/
theorem startsWith_iff_of_partsPlainly (hp : p.isAbsolute) (hq : q.isAbsolute)
    (h : p.PartsPlainly q) : q.startsWith p ↔ p.normalSteps <+: q.normalSteps := by
  obtain ⟨cs, hc, hcs⟩ := components_of_isAbsolute hp
  obtain ⟨ds, hd, hds⟩ := components_of_isAbsolute hq
  obtain ⟨hpar, hqar⟩ := h
  have htake := take_commonLength cs ds
  have hlength : commonLength p.components q.components = commonLength cs ds + 1 := by
    simp [hc, hd, commonLength]
  generalize commonLength cs ds = n at htake hlength
  rw [hlength, hc, List.drop_succ_cons] at hpar
  rw [hlength, hd, List.drop_succ_cons] at hqar
  obtain ⟨cnames, hcn⟩ := eq_names_of_not_parent (fun c hm => hcs c (List.mem_of_mem_drop hm)) hpar
  obtain ⟨dnames, hdn⟩ := eq_names_of_not_parent (fun c hm => hds c (List.mem_of_mem_drop hm)) hqar
  have hcsplit : cs = cs.take n ++ cnames.map .name := by rw [← hcn, List.take_append_drop]
  have hdsplit : ds = cs.take n ++ dnames.map .name := by
    rw [htake, ← hdn, List.take_append_drop]
  have hinj : cnames.map Component.name <+: dnames.map Component.name ↔ cnames <+: dnames :=
    List.prefix_map_iff_of_injective fun a b h => Component.name.inj h
  rw [normalSteps_prefix_iff hp hq, place_eq_foldl hp hc, place_eq_foldl hq hd, startsWith,
    List.isPrefixOf_iff_prefix, hc, hd, List.prefix_cons_inj, hcsplit, hdsplit,
    List.prefix_append_right_inj, List.foldl_append, List.foldl_append,
    Component.foldl_follow_names, Component.foldl_follow_names, List.prefix_append_right_inj, hinj]

end Path

end InterfaceGuards
