/-
  Paths as they are written.

  * `Path.asWritten`: the steps of a path with single slashes, one of them in front if the path
    starts at the root.
  * `slashed_root`, `asWritten_relative`: with slashes between all its steps, an absolute path has
    two of them in front, and a relative one is as it is written.
  * `components_of_slashed`: the steps of a relative path are read off what is written of them.
  * `length_normalSteps_le`: a normal form has no more steps than the path.
-/
import InterfaceGuards.Proofs.Path.Join

namespace InterfaceGuards

namespace Path

open Text (joinWith intercalate)

variable {p : Path} {cs : List Component} {c : Component}

/-! ## Texts of steps -/

/-- The steps of a path with a slash between any two, and one in front if it starts at the root. -/
def asWritten (p : Path) : String :=
  (if p.isAbsolute then "/" else "") ++
    joinWith "/" ((p.components.filter (· ≠ .root)).map Component.text)

theorem toList_joinWith (cs : List Component) :
    (joinWith "/" (cs.map Component.text)).toList = intercalate ['/'] (segmentsOf cs) := by
  simp [joinWith, segmentsOf, Function.comp_def]

/-- What is written of steps does not begin with a slash. -/
theorem slash_append_ne (h : ∀ c ∈ cs, c.IsStep) (text : String) :
    "/" ++ text ≠ joinWith "/" (cs.map Component.text) := by
  intro heq
  have habs := not_isAbsolute_segments h
  rw [Bool.eq_false_iff] at habs
  refine habs (isAbsolute_iff.2 ⟨text.toList, ?_⟩)
  rw [text_ofSegments, Lead.chars, List.nil_append, ← toList_joinWith, ← heq]
  simp

theorem joinWith_eq_empty_iff (h : ∀ c ∈ cs, c.IsStep) :
    joinWith "/" (cs.map Component.text) = "" ↔ cs = [] := by
  constructor
  · intro hempty
    by_contra hne
    have hsplit := splitOn_segments h hne
    rw [← toList_joinWith, hempty] at hsplit
    cases cs with
    | nil => exact hne rfl
    | cons c cs =>
      rw [segmentsOf, List.map_cons] at hsplit
      exact (h c List.mem_cons_self).text_ne_nil (List.cons.inj hsplit).1.symm
  · rintro rfl
    rfl

theorem slashed_ofComponents (h : ∀ c ∈ cs, c.IsStep) :
    (ofComponents cs).slashed = joinWith "/" (cs.map Component.text) := by
  rw [slashed, components_ofComponents h]

/-- A path from the root is shown with two slashes in front of its first step. -/
theorem slashed_root (h : p.components = .root :: cs) (hne : cs ≠ []) :
    p.slashed = "/" ++ ("/" ++ joinWith "/" (cs.map Component.text)) := by
  rw [slashed, h, ← String.toList_inj, List.map_cons]
  cases cs with
  | nil => exact absurd rfl hne
  | cons c cs => simp [joinWith, intercalate, Component.text]

theorem slashed_root_nil (h : p.components = [.root]) : p.slashed = "/" := by
  rw [slashed, h]
  rfl

theorem asWritten_absolute (hp : p.isAbsolute) (h : p.components = .root :: cs)
    (hcs : ∀ c ∈ cs, c.IsStep) : p.asWritten = "/" ++ joinWith "/" (cs.map Component.text) := by
  have hfilter : cs.filter (· ≠ .root) = cs :=
    List.filter_eq_self.2 fun c hc => by simpa using (hcs c hc).ne_root
  rw [asWritten, if_pos hp, h, List.filter_cons_of_neg (by simp), hfilter]

theorem ne_root_of_relative (hp : p.isAbsolute = false) (hc : c ∈ p.components) : c ≠ .root := by
  rintro rfl
  have hmem : Component.root ∈ p.components.filter (· ≠ .current) :=
    List.mem_filter.2 ⟨hc, by decide⟩
  rw [components_filter, start, hp] at hmem
  exact (isStep_of_mem_strides (by simpa using hmem)).ne_root rfl

/-- A relative path is shown as it is written. -/
theorem asWritten_relative (hp : p.isAbsolute = false) : p.asWritten = p.slashed := by
  have hfilter : p.components.filter (· ≠ .root) = p.components :=
    List.filter_eq_self.2 fun c hc => by simpa using ne_root_of_relative hp hc
  rw [asWritten, hp, hfilter, slashed]
  simp

/-! ## Reading what is written -/

/-- The steps of a relative path are read off their texts. -/
theorem map_componentOf?_segments (h : ∀ c ∈ cs, c.IsStep ∨ c = .current) :
    (segmentsOf cs).map (fun segment => (componentOf? segment).getD .current) = cs := by
  rw [segmentsOf, List.map_map]
  refine (List.map_congr_left fun c hc => ?_).trans (List.map_id cs)
  rcases h c hc with hstep | rfl
  · rw [Function.comp_apply, hstep.1]
    rfl
  · rfl

theorem isStep_or_current (hp : p.isAbsolute = false) (hc : c ∈ p.components) :
    c.IsStep ∨ c = .current := by
  by_cases hcurrent : c = .current
  · exact .inr hcurrent
  · exact .inl (isStep_of_mem_components hc (ne_root_of_relative hp hc) hcurrent)

/-- **Only the steps that are written read like that.** -/
theorem components_of_slashed (hp : p.isAbsolute = false) (hcs : ∀ c ∈ cs, c.IsStep)
    (hne : cs ≠ []) (h : p.slashed = joinWith "/" (cs.map Component.text)) : p.components = cs := by
  have hsteps : ∀ c ∈ p.components, c.IsStep ∨ c = .current := fun c hc => isStep_or_current hp hc
  have hslash : ∀ segment ∈ segmentsOf p.components, '/' ∉ segment := by
    intro segment hsegment
    obtain ⟨c, hc, rfl⟩ := List.mem_map.1 hsegment
    rcases hsteps c hc with hstep | rfl
    · exact hstep.2
    · decide
  have hsome : segmentsOf p.components ≠ [] := by
    intro hnone
    rw [slashed, List.map_eq_nil_iff.1 hnone] at h
    exact hne ((joinWith_eq_empty_iff hcs).1 h.symm)
  have hsplit : segmentsOf p.components = segmentsOf cs := by
    rw [← Text.splitOn_intercalate hsome hslash, ← splitOn_segments hcs hne, ← toList_joinWith,
      ← toList_joinWith, ← h, slashed]
  rw [← map_componentOf?_segments hsteps, hsplit,
    map_componentOf?_segments fun c hc => .inl (hcs c hc)]

/-! ## How many -/

theorem length_foldl_resolve (cs taken : List Component) :
    (cs.foldl Component.resolve taken).length ≤ taken.length + cs.length := by
  induction cs generalizing taken with
  | nil => exact Nat.le_refl _
  | cons c cs ih =>
    have hstep : (Component.resolve taken c).length ≤ taken.length + 1 := by
      cases c with
      | parent =>
        cases taken with
        | nil => simp [Component.resolve]
        | cons d before => cases d <;> simp [Component.resolve, Nat.le_succ_of_le]
      | _ => simp [Component.resolve]
    have hrest := ih (Component.resolve taken c)
    rw [List.foldl_cons, List.length_cons]
    omega

/-- A normal form has no more steps than the path. -/
theorem length_normalSteps_le (p : Path) : p.normalSteps.length ≤ p.components.length := by
  simpa [normalSteps] using length_foldl_resolve p.components []

end Path

end InterfaceGuards
