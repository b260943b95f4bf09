/-
  The shape of normal forms.

  * `normalSteps_shape`: names behind a base: the root, or some steps upwards.
  * `Path.Inside`: lying in a directory, step by step: names lead there from it.
  * `Path.Astray`: what begins with the steps of a directory and yet leads out of it.
  * `inside_or_astray`: there is nothing else that begins with these steps.
  * `Astray.climbs`: only a directory that is spelled by steps upwards can be left in this way.
-/
import InterfaceGuards.Proofs.Path.Join

namespace InterfaceGuards

namespace Path

variable {p dir root : Path} {base : List Component} {names : List String} {c : Component}

/-! ## Shape -/

/-- What a normal form begins with: the root, or as many steps upwards as lead out of where the
    path starts. -/
inductive Base : List Component → Prop
  | root : Base [.root]
  | climb (n : Nat) : Base (List.replicate n .parent)

theorem Base.reverse_eq (h : Base base) : base.reverse = base := by
  cases h with
  | root => rfl
  | climb n => exact List.reverse_replicate

theorem Base.eq_of_mem (h : Base base) (hc : c ∈ base) : c = .parent ∨ c = .root := by
  cases h with
  | root => exact .inr (List.mem_singleton.1 hc)
  | climb n => exact .inl (List.eq_of_mem_replicate hc)

/-- What stands before a part of a base is made of steps upwards. -/
theorem Base.eq_climb {before rest : List Component} (h : Base base)
    (hbase : base = before ++ c :: rest) : ∃ n, before = List.replicate n .parent := by
  cases h with
  | root =>
    obtain rfl : before = [] := by
      cases before with
      | nil => rfl
      | cons b before => simp at hbase
    exact ⟨0, rfl⟩
  | climb n =>
    obtain ⟨-, hbefore, -⟩ := List.append_eq_replicate_iff.1 hbase.symm
    exact ⟨_, hbefore⟩

/-- The steps taken along names behind a base, the last one first. -/
def taken (base : List Component) (names : List String) : List Component :=
  (names.map Component.name).reverse ++ base

/-- Every step leads from such steps to such steps. -/
theorem exists_resolve_taken (hb : Base base) (hn : ∀ c ∈ names.map Component.name, c.IsStep)
    (hc : c.IsStep) : ∃ (base' : List Component) (names' : List String), Base base' ∧
      (∀ c ∈ names'.map Component.name, c.IsStep) ∧
      Component.resolve (taken base names) c = taken base' names' := by
  cases c with
  | root => exact absurd rfl hc.ne_root
  | current => exact absurd rfl hc.ne_current
  | name text =>
    refine ⟨base, names ++ [text], hb, ?_, by simp [taken, Component.resolve]⟩
    rw [List.map_append, List.forall_mem_append]
    exact ⟨hn, by simpa using hc⟩
  | parent =>
    rcases List.eq_nil_or_concat names with rfl | ⟨before, text, rfl⟩
    · -- Nothing is left to take back but the base.
      cases hb with
      | root => exact ⟨[.root], [], .root, by simp, rfl⟩
      | climb n =>
        refine ⟨_, [], .climb (n + 1), by simp, ?_⟩
        cases n <;> rfl
    · refine ⟨base, before, hb, fun c hc => hn c ?_, by simp [taken, Component.resolve]⟩
      rw [List.concat_eq_append, List.map_append]
      exact List.mem_append_left _ hc

theorem exists_foldl_taken {cs : List Component} (hcs : ∀ c ∈ cs, c.IsStep) (hb : Base base)
    (hn : ∀ c ∈ names.map Component.name, c.IsStep) :
    ∃ (base' : List Component) (names' : List String), Base base' ∧
      (∀ c ∈ names'.map Component.name, c.IsStep) ∧
      cs.foldl Component.resolve (taken base names) = taken base' names' := by
  induction cs generalizing base names with
  | nil => exact ⟨base, names, hb, hn, rfl⟩
  | cons c cs ih =>
    obtain ⟨hc, hcs⟩ := List.forall_mem_cons.1 hcs
    obtain ⟨base₁, names₁, hb₁, hn₁, hstep⟩ := exists_resolve_taken hb hn hc
    rw [List.foldl_cons, hstep]
    exact ih hcs hb₁ hn₁

/-- **A normal form** is made of names behind a base. -/
theorem normalSteps_shape (p : Path) :
    ∃ (base : List Component) (names : List String), Base base ∧
      (∀ c ∈ names.map Component.name, c.IsStep) ∧ p.normalSteps = base ++ names.map .name := by
  have hstart : ∃ base, Base base ∧ p.start = taken base [] := by
    unfold start
    split_ifs
    · exact ⟨[.root], .root, rfl⟩
    · exact ⟨[], .climb 0, rfl⟩
  have hnone : ∀ c ∈ ([] : List String).map Component.name, c.IsStep := by simp
  obtain ⟨base₀, hb₀, hstart⟩ := hstart
  obtain ⟨base, names, hb, hn, hfold⟩ := exists_foldl_taken
    (fun c hc => isStep_of_mem_strides (p := p) hc) hb₀ hnone
  refine ⟨base, names, hb, hn, ?_⟩
  rw [normalSteps_eq_resolve, hstart, hfold]
  simp [taken, hb.reverse_eq]

/-- The names in a normal form are steps. -/
theorem isStep_of_mem_normalSteps {text : String} (h : .name text ∈ p.normalSteps) :
    (Component.name text).IsStep := by
  obtain ⟨base, names, hb, hn, heq⟩ := p.normalSteps_shape
  rw [heq, List.mem_append] at h
  refine hn _ (h.resolve_left fun hm => ?_)
  simpa using hb.eq_of_mem hm

/-- The place of an absolute path is spelled by names. -/
theorem isStep_of_mem_place (h : p.isAbsolute) : ∀ c ∈ p.place.map Component.name, c.IsStep := by
  intro c hc
  have hmem : c ∈ p.normalSteps := by
    rw [normalSteps_eq h]
    exact List.mem_cons_of_mem _ hc
  obtain ⟨n, -, rfl⟩ := List.mem_map.1 hc
  exact isStep_of_mem_normalSteps hmem

/-- A step of a normal form is a name with only names behind it, or belongs to the base. -/
theorem names_or_base {before rest : List Component} (h : p.normalSteps = before ++ c :: rest) :
    (∃ names : List String, c :: rest = names.map .name) ∨
      ∃ base part, Base base ∧ base = before ++ c :: part := by
  obtain ⟨base, names, hb, -, heq⟩ := p.normalSteps_shape
  rw [h] at heq
  rcases List.append_eq_append_iff.1 heq with ⟨part, hbase, hrest⟩ | ⟨part, -, hnames⟩
  · cases part with
    | nil => exact .inl ⟨names, hrest⟩
    | cons d part =>
      obtain ⟨rfl, -⟩ := List.cons.inj hrest
      exact .inr ⟨base, part, hb, hbase⟩
  · obtain ⟨_, more, -, -, hmore⟩ := List.map_eq_append_iff.1 hnames
    exact .inl ⟨more, hmore.symm⟩

/-! ## Inside and astray -/

/-- Lying in a directory: from its normal form names lead on. -/
def Inside (dir root : Path) : Prop :=
  ∃ names : List String, dir.normalSteps = root.normalSteps ++ names.map .name

/-- Beginning with the steps of a directory, but leading out of it: upwards, or to the root. -/
def Astray (dir root : Path) : Prop :=
  ∃ c rest, dir.normalSteps = root.normalSteps ++ c :: rest ∧ (c = .parent ∨ c = .root)

theorem Inside.not_astray (h : dir.Inside root) : ¬dir.Astray root := by
  obtain ⟨names, hnames⟩ := h
  rintro ⟨c, rest, hrest, hc⟩
  rw [hnames, List.append_cancel_left_eq] at hrest
  have hmem : c ∈ names.map Component.name := by simp [hrest]
  obtain ⟨n, -, rfl⟩ := List.mem_map.1 hmem
  simp at hc

/-- **What begins with the steps of a directory lies in it or is astray.** -/
theorem inside_or_astray (h : root.normalSteps <+: dir.normalSteps) :
    dir.Inside root ∨ dir.Astray root := by
  obtain ⟨rest, hrest⟩ := h
  cases rest with
  | nil => exact .inl ⟨[], hrest.symm⟩
  | cons c rest =>
    rcases names_or_base hrest.symm with ⟨names, hnames⟩ | ⟨base, part, hb, hbase⟩
    · exact .inl ⟨names, by rw [← hnames, hrest]⟩
    · exact .inr ⟨c, rest, hrest.symm, hb.eq_of_mem (by simp [hbase])⟩

/-- **Only what is spelled by steps upwards, or by none, is left in this way.** -/
theorem Astray.climbs (h : dir.Astray root) : ∃ n, root.normalSteps = List.replicate n .parent := by
  obtain ⟨c, rest, hrest, hc⟩ := h
  rcases names_or_base hrest with ⟨names, hnames⟩ | ⟨base, part, hb, hbase⟩
  · cases names with
    | nil => cases hnames
    | cons n names =>
      obtain ⟨rfl, -⟩ := List.cons.inj hnames
      simp at hc
  · exact hb.eq_climb hbase

/-- An absolute path is astray as a whole: what it leads out of has no steps. -/
theorem Astray.of_isAbsolute (hd : dir.isAbsolute) (h : dir.Astray root) :
    root.normalSteps = [] := by
  obtain ⟨n, hn⟩ := h.climbs
  obtain ⟨c, rest, hrest, -⟩ := h
  rw [normalSteps_eq hd, hn] at hrest
  cases n with
  | zero => exact hn
  | succ n => simp [List.replicate_succ] at hrest

/-- An absolute directory is not left in this way. -/
theorem not_astray_of_isAbsolute (h : root.isAbsolute) : ¬dir.Astray root := by
  intro hastray
  obtain ⟨n, hn⟩ := hastray.climbs
  rw [normalSteps_eq h] at hn
  cases n <;> cases hn

end Path

end InterfaceGuards
