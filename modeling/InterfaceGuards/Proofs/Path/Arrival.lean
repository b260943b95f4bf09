/-
  Where relative paths arrive.

  * `Path.climbs`: how far a path leads out of where it starts; `climbs_le_join`: no relative path
    leads back from there.
  * `foldl_resolve_base`: a normal form is its own normal form.
  * `foldl_resolve_wayBetween`: the steps from one normal form to another lead there, if the first
    does not lead out further than the second.
  * `relativeTo?_arrives_iff`: the relative path between two paths of one kind arrives just then, and
    just then there is a path that does.
-/
import InterfaceGuards.Proofs.Path.Relative

namespace InterfaceGuards

namespace Path

variable {p q source target : Path} {cs as bs : List Component} {base : List Component}
  {names more : List String}

/-! ## Climbing -/

/-- The number of steps upwards by which a path leads out of where it starts. -/
def climbs (p : Path) : Nat := p.normalSteps.count .parent

theorem count_parent_climb (n : Nat) (names : List String) :
    (List.replicate n Component.parent ++ names.map Component.name).count .parent = n := by
  have hnames : (names.map Component.name).count .parent = 0 := by
    simp [List.count_eq_zero]
  rw [List.count_append, List.count_replicate_self, hnames, Nat.add_zero]

/-- Steps lead upwards further and further: what was climbed is never taken back. -/
theorem exists_foldl_climb (hcs : ∀ c ∈ cs, c.IsStep) (n : Nat) (names : List String) :
    ∃ m more, n ≤ m ∧ cs.foldl Component.resolve (taken (List.replicate n .parent) names) =
      taken (List.replicate m .parent) more := by
  induction cs generalizing n names with
  | nil => exact ⟨n, names, Nat.le_refl n, rfl⟩
  | cons c cs ih =>
    obtain ⟨hc, hcs⟩ := List.forall_mem_cons.1 hcs
    have hstep : ∃ m more, n ≤ m ∧
        Component.resolve (taken (List.replicate n .parent) names) c =
          taken (List.replicate m .parent) more := by
      cases c with
      | root => exact absurd rfl hc.ne_root
      | current => exact absurd rfl hc.ne_current
      | name text => exact ⟨n, names ++ [text], Nat.le_refl n, by simp [taken, Component.resolve]⟩
      | parent =>
        rcases List.eq_nil_or_concat names with rfl | ⟨before, text, rfl⟩
        · -- No name is left to take back.
          exact ⟨n + 1, [], Nat.le_succ n, by cases n <;> rfl⟩
        · exact ⟨n, before, Nat.le_refl n, by simp [taken, Component.resolve]⟩
    obtain ⟨m, more, hm, hstep⟩ := hstep
    obtain ⟨k, last, hk, hrest⟩ := ih hcs m more
    exact ⟨k, last, Nat.le_trans hm hk, by rw [List.foldl_cons, hstep, hrest]⟩

/-- **The normal form of a relative path** climbs, and then goes along names. -/
theorem exists_normalSteps (h : p.isAbsolute = false) :
    ∃ names : List String, p.normalSteps = List.replicate p.climbs .parent ++ names.map .name := by
  have hstart : p.start = taken (List.replicate 0 .parent) [] := by simp [start, h, taken]
  obtain ⟨n, names, -, hfold⟩ :=
    exists_foldl_climb (fun c hc => isStep_of_mem_strides (p := p) hc) 0 []
  have hsteps : p.normalSteps = List.replicate n .parent ++ names.map .name := by
    rw [normalSteps_eq_resolve, hstart, hfold]
    simp [taken]
  have hclimbs : p.climbs = n := by rw [climbs, hsteps, count_parent_climb]
  exact ⟨names, by rw [hclimbs, hsteps]⟩

/-- There are only steps in the normal form of a relative path. -/
theorem isStep_of_mem_normalSteps_relative (h : p.isAbsolute = false) :
    ∀ c ∈ p.normalSteps, c.IsStep := by
  obtain ⟨names, hsteps⟩ := exists_normalSteps h
  intro c hc
  cases c with
  | name text => exact isStep_of_mem_normalSteps hc
  | parent => exact isStep_parent
  | _ => simp [hsteps, List.mem_replicate] at hc

theorem climbs_of_isAbsolute (h : p.isAbsolute) : p.climbs = 0 := by
  rw [climbs, normalSteps_eq h, List.count_cons_of_ne (by simp)]
  simp [List.count_eq_zero]

/-- **No relative path leads back** from where another one has climbed to. -/
theorem climbs_le_join (h : q.isAbsolute = false) (p : Path) : p.climbs ≤ (p.join q).climbs := by
  cases hp : p.isAbsolute with
  | true =>
    rw [climbs_of_isAbsolute hp]
    exact Nat.zero_le _
  | false =>
    obtain ⟨names, hsteps⟩ := exists_normalSteps hp
    have hback : p.normalSteps.reverse = taken (List.replicate p.climbs .parent) names := by
      rw [hsteps]
      simp [taken]
    obtain ⟨m, more, hm, hfold⟩ :=
      exists_foldl_climb (fun c hc => isStep_of_mem_strides (p := q) hc) p.climbs names
    have hclimbs : (p.join q).climbs = m := by
      rw [climbs, normalSteps_join h, hback, hfold]
      simpa [taken] using count_parent_climb m more
    rwa [hclimbs]

/-! ## Normal forms -/

/-- **A normal form is its own normal form.** -/
theorem foldl_resolve_base (h : Base base) (names : List String) :
    (base ++ names.map Component.name).foldl Component.resolve [] = taken base names := by
  have hbase : base.foldl Component.resolve [] = base := by
    cases h with
    | root => rfl
    | climb n =>
      induction n with
      | zero => rfl
      | succ n ih =>
        rw [List.replicate_succ', List.foldl_append, ih]
        cases n <;> simp [Component.resolve, List.replicate_succ, ← List.replicate_succ']
  rw [List.foldl_append, hbase, foldl_resolve_names, taken]

/-- As many steps upwards as there are names lead back behind them. -/
theorem foldl_resolve_parents (names : List String) (taken : List Component) :
    (List.replicate names.length Component.parent).foldl Component.resolve
      ((names.map Component.name).reverse ++ taken) = taken := by
  induction names using List.reverseRecOn with
  | nil => rfl
  | append_singleton names n ih =>
    rw [List.length_append, List.length_singleton, List.replicate_succ, List.foldl_cons]
    simpa [Component.resolve] using ih

/-! ## From one normal form to another -/

theorem commonLength_append (cs as bs : List Component) :
    commonLength (cs ++ as) (cs ++ bs) = cs.length + commonLength as bs := by
  induction cs with
  | nil => simp
  | cons c cs ih =>
    rw [List.cons_append, List.cons_append, commonLength, if_pos rfl, ih, List.length_cons]
    omega

/-- What two normal forms begin with is left out of the way between them. -/
theorem wayBetween_append (cs as bs : List Component) :
    wayBetween (cs ++ as) (cs ++ bs) = wayBetween as bs := by
  rw [wayBetween, wayBetween, commonLength_append, List.length_append, Nat.add_sub_add_left,
    List.drop_append, List.drop_eq_nil_of_le (Nat.le_add_right ..), Nat.add_sub_cancel_left,
    List.nil_append]

/-- **The steps from one normal form to another lead there**, if the first does not lead out further
    than the second. -/
theorem foldl_resolve_wayBetween {n m : Nat} (h : n ≤ m) (names more : List String) :
    let start := List.replicate n Component.parent ++ names.map .name
    let goal := List.replicate m Component.parent ++ more.map .name
    (wayBetween start goal).foldl Component.resolve start.reverse = goal.reverse := by
  intro start goal
  obtain ⟨d, rfl⟩ := Nat.exists_eq_add_of_le h
  have hgoal : goal = List.replicate n .parent ++
      (List.replicate d .parent ++ more.map .name) := by
    simp only [goal, List.replicate_add, List.append_assoc]
  have htake := take_commonLength (names.map .name) (List.replicate d .parent ++ more.map .name)
  have hway : wayBetween start goal =
      wayBetween (names.map .name) (List.replicate d .parent ++ more.map .name) := by
    rw [hgoal]
    exact wayBetween_append ..
  rw [hway, wayBetween]
  generalize commonLength (names.map .name) (List.replicate d .parent ++ more.map .name) = k at htake
  -- The names behind the part that is shared are taken back.
  have hback : start.reverse = ((names.drop k).map Component.name).reverse ++
      taken (List.replicate n .parent) (names.take k) := by
    simp only [start, taken, List.reverse_append, List.reverse_replicate, ← List.append_assoc]
    rw [← List.reverse_append, ← List.map_append, List.take_append_drop]
  have hlength : (names.map Component.name).length - k = (names.drop k).length := by simp
  rw [List.foldl_append, hback, hlength, foldl_resolve_parents]
  -- What is left to go completes the normal form that is aimed at.
  have hsplit : goal = (List.replicate n .parent ++ (names.take k).map .name) ++
      (List.replicate d Component.parent ++ more.map Component.name).drop k := by
    rw [hgoal, List.map_take, htake, List.append_assoc, List.take_append_drop]
  have hwhole : goal.foldl Component.resolve [] = goal.reverse := by
    rw [foldl_resolve_base (.climb _)]
    simp [goal, taken]
  rw [← hwhole]
  conv_rhs => rw [hsplit, List.foldl_append, foldl_resolve_base (.climb n)]

/-! ## Relative paths -/

/-- Between two paths of one kind there are only steps. -/
theorem isStep_of_mem_wayBetween (h : source.isAbsolute = target.isAbsolute) :
    ∀ c ∈ wayBetween source.normalSteps target.normalSteps, c.IsStep := by
  cases ht : target.isAbsolute with
  | true =>
    rw [wayBetween_of_isAbsolute (h.trans ht) ht]
    exact isStep_of_mem_stepsBetween _ (isStep_of_mem_place ht)
  | false =>
    intro c hc
    rcases List.mem_append.1 hc with hc | hc
    · rw [List.eq_of_mem_replicate hc]
      exact isStep_parent
    · exact isStep_of_mem_normalSteps_relative ht c (List.mem_of_mem_drop hc)

/-- The way between two paths is taken by joining it. -/
theorem normalSteps_join_wayBetween (h : source.isAbsolute = target.isAbsolute) :
    (source.join (ofComponents (wayBetween source.normalSteps target.normalSteps))).normalSteps =
      ((wayBetween source.normalSteps target.normalSteps).foldl Component.resolve
        source.normalSteps.reverse).reverse := by
  have hsteps := isStep_of_mem_wayBetween h
  rw [normalSteps_join (not_isAbsolute_steps hsteps), strides_steps hsteps]

/-- **The relative path arrives** if the path that it starts from does not lead out further than its
    target. -/
theorem join_wayBetween (h : source.isAbsolute = target.isAbsolute)
    (hclimbs : source.climbs ≤ target.climbs) :
    (source.join (ofComponents (wayBetween source.normalSteps target.normalSteps))).normalSteps =
      target.normalSteps := by
  cases ht : target.isAbsolute with
  | true =>
    have hs := h.trans ht
    have hsteps := isStep_of_mem_stepsBetween source.place (isStep_of_mem_place ht)
    have hleads := leads_slashed hs ht source rfl
    rwa [slashed_steps hsteps, ← wayBetween_of_isAbsolute hs ht] at hleads
  | false =>
    obtain ⟨names, hs⟩ := exists_normalSteps (h.trans ht)
    obtain ⟨more, hgoal⟩ := exists_normalSteps ht
    rw [normalSteps_join_wayBetween h, hs, hgoal, foldl_resolve_wayBetween hclimbs names more,
      List.reverse_reverse]

/-- **Between any two paths of one kind there is a relative path**, and it arrives exactly if the path
    that it starts from does not lead out further than its target; that is exactly if any relative
    path arrives.  Absolute paths do not lead out at all. -/
theorem relativeTo?_arrives_iff (h : source.isAbsolute = target.isAbsolute) :
    ∃ way, source.relativeTo? target = some way ∧ way.isAbsolute = false ∧
      ((source.join way).normalSteps = target.normalSteps ↔ source.climbs ≤ target.climbs) ∧
      ((∃ q : Path, q.isAbsolute = false ∧ (source.join q).normalSteps = target.normalSteps) ↔
        source.climbs ≤ target.climbs) ∧
      (source.isAbsolute → source.climbs = 0) := by
  have hrelative := not_isAbsolute_steps (isStep_of_mem_wayBetween h)
  have hback : ∀ q : Path, q.isAbsolute = false →
      (source.join q).normalSteps = target.normalSteps → source.climbs ≤ target.climbs := by
    intro q hq hjoin
    have hle := climbs_le_join hq source
    rwa [climbs, climbs, hjoin] at hle
  exact ⟨_, relativeTo?_eq h, hrelative, ⟨hback _ hrelative, join_wayBetween h⟩,
    ⟨fun ⟨q, hq, hjoin⟩ => hback q hq hjoin, fun hle => ⟨_, hrelative, join_wayBetween h hle⟩⟩,
    climbs_of_isAbsolute⟩

/-- From a directory beside the one started from, a path two levels above is reached. -/
theorem relativeTo?_arrives_above :
    let source : Path := ⟨"../a/./b"⟩
    let target : Path := ⟨"x/../../../c"⟩
    source.isAbsolute = target.isAbsolute ∧ source.climbs = 1 ∧ target.climbs = 2 ∧
      source.relativeTo? target = some ⟨"../../../c"⟩ ∧
      (source.join ⟨"../../../c"⟩).normalSteps = target.normalSteps := by
  intro source target
  have hkind : source.isAbsolute = target.isAbsolute := by decide
  have hs : source.climbs = 1 := by decide +kernel
  have ht : target.climbs = 2 := by decide +kernel
  have hwritten : source.relativeTo? target = some ⟨"../../../c"⟩ := by decide +kernel
  obtain ⟨way, hway, -, harrives, -⟩ := relativeTo?_arrives_iff hkind
  rw [hwritten, Option.some.injEq] at hway
  subst hway
  exact ⟨hkind, hs, ht, hwritten, harrives.2 (by rw [hs, ht]; decide)⟩

/-- From `../a` no path leads to `b`, as the name of the directory started from is not known there;
    the relative path that is made leads elsewhere. -/
theorem relativeTo?_lost :
    let source : Path := ⟨"../a"⟩
    let target : Path := ⟨"b"⟩
    source.isAbsolute = target.isAbsolute ∧ source.relativeTo? target = some ⟨"../../b"⟩ ∧
      (source.join ⟨"../../b"⟩).normalSteps = [.parent, .parent, .name "b"] ∧
      target.normalSteps = [.name "b"] ∧
      ¬∃ way, source.relativeTo? target = some way ∧
        (source.join way).normalSteps = target.normalSteps := by
  decide +kernel

end Path

end InterfaceGuards
