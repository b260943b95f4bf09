/-
  Paths seen from other paths.

  * `Path.strides`: the steps of a path behind its start.
  * `components_filter`: they are its steps, but for the root and for `.`.
  * `strides_join`: joining puts the steps of one path behind those of the other.
  * `normalSteps_join`, `place_join`: where a relative path leads to from another path depends on
    the normal form of that path alone.
  * `exists_parent?`, `parent?_names`: the parent has one step less.
-/
import InterfaceGuards.Proofs.Path.Place
import Mathlib.Data.List.Induction

namespace InterfaceGuards

namespace Text

/-- A separator between two texts parts them. -/
theorem splitOn_separator {c : Char} (before rest : List Char) :
    splitOn c (before ++ c :: rest) = splitOn c before ++ splitOn c rest := by
  induction before with
  | nil => simp [splitOn]
  | cons d before ih =>
    rw [List.cons_append, splitOn, splitOn, ih]
    split_ifs with hd
    · rfl
    · cases hs : splitOn c before with
      | nil => exact absurd hs (splitOn_ne_nil c before)
      | cons part parts => rfl

end Text

namespace Path

open Text (splitOn intercalate)

variable {p q : Path} {names : List String} {c : Component}

/-! ## Strides -/

/-- The steps of a path behind its start, which may be the root: those that it is made of but for
    `.`. -/
def strides (p : Path) : List Component := (splitOn '/' p.text.toList).filterMap componentOf?

theorem isStep_of_mem_strides (h : c ∈ p.strides) : c.IsStep := by
  obtain ⟨segment, hs, hc⟩ := List.mem_filterMap.1 h
  exact (Component.isStep_of_componentOf? hc (Text.not_mem_of_mem_splitOn hs)).1

theorem filter_of_isStep {cs : List Component} (h : ∀ c ∈ cs, c.IsStep) :
    cs.filter (· ≠ .current) = cs :=
  List.filter_eq_self.2 fun c hc => by simpa using (h c hc).ne_current

/-- Behind its lead a text has the strides of the whole: the lead is none of them. -/
theorem filterMap_splitLead (cs : List Char) :
    (splitOn '/' (splitLead cs).2).filterMap componentOf? =
      (splitOn '/' cs).filterMap componentOf? := by
  unfold splitLead
  split
  · simp [splitOn, componentOf?]
  · rfl
  · simp [splitOn, componentOf?]
  · rfl

theorem splitLead_eq_root_iff {cs : List Char} :
    (splitLead cs).1 = .root ↔ cs.head? = some '/' := by
  unfold splitLead
  split
  · simp
  · simp
  · simp
  · rename_i hroot _ _
    cases cs with
    | nil => simp
    | cons c rest =>
      simp only [List.head?_cons, Option.some.injEq, reduceCtorEq, false_iff]
      rintro rfl
      exact hroot rest rfl

/-- The root, if a path starts there. -/
def start (p : Path) : List Component := if p.isAbsolute then [.root] else []

/-- **The steps of a path** are its start and its strides, when those that stay are left out. -/
theorem components_filter (p : Path) :
    p.components.filter (· ≠ .current) = p.start ++ p.strides := by
  have hstrides := filter_of_isStep fun c hc => isStep_of_mem_strides (p := p) (c := c) hc
  have hstart : (splitLead p.text.toList).1.components.filter (· ≠ .current) = p.start := by
    have hiff : (splitLead p.text.toList).1 = .root ↔ p.isAbsolute := by
      rw [splitLead_eq_root_iff, isAbsolute, beq_iff_eq]
    unfold start
    split_ifs with habs
    · rw [hiff.2 habs]
      rfl
    · cases hl : (splitLead p.text.toList).1 with
      | root => exact absurd (hiff.1 hl) habs
      | _ => rfl
  rw [components_eq, filterMap_splitLead, List.filter_append, hstart]
  exact congrArg _ hstrides

/-- Steps that stay where they are change no normal form. -/
theorem foldl_resolve_filter (cs taken : List Component) :
    (cs.filter (· ≠ .current)).foldl Component.resolve taken =
      cs.foldl Component.resolve taken := by
  induction cs generalizing taken with
  | nil => rfl
  | cons c cs ih =>
    by_cases hc : c = .current
    · subst hc
      rw [List.filter_cons_of_neg (by simp), ih]
      rfl
    · rw [List.filter_cons_of_pos (by simpa using hc), List.foldl_cons, List.foldl_cons, ih]

/-- **The normal form of a path** resolves its strides, from its start on. -/
theorem normalSteps_eq_resolve (p : Path) :
    p.normalSteps = (p.strides.foldl Component.resolve p.start).reverse := by
  have hstart : p.start.foldl Component.resolve [] = p.start := by
    unfold start
    split_ifs <;> rfl
  rw [normalSteps, ← foldl_resolve_filter, components_filter, List.foldl_append, hstart]

/-- The strides of an absolute path lead to its place. -/
theorem place_eq_strides (p : Path) : p.place = p.strides.foldl Component.follow [] := by
  rw [place, strides, filterMap_componentOf?, Component.foldl_follow_filter]
  rfl

/-! ## Joining -/

/-- **Joining puts the steps of one path behind those of the other.** -/
theorem strides_join (h : q.isAbsolute = false) (p : Path) :
    (p.join q).strides = p.strides ++ q.strides := by
  unfold join
  rw [if_neg (by simp [h])]
  unfold strides
  split_ifs with hp
  · rcases hp with hp | hp
    · simp [hp, splitOn, componentOf?]
    · obtain ⟨before, hbefore⟩ := List.getLast?_eq_some_iff.1 hp
      have hlast : splitOn '/' p.text.toList = splitOn '/' before ++ [[]] := by
        rw [hbefore, Text.splitOn_separator]
        rfl
      rw [String.toList_append, hlast, hbefore, List.append_assoc, List.singleton_append,
        Text.splitOn_separator]
      simp [componentOf?]
  · simp only [String.toList_append]
    rw [show "/".toList = ['/'] from rfl, List.append_assoc, List.singleton_append,
      Text.splitOn_separator, List.filterMap_append]

/-- A path continued by a relative one starts where it started. -/
theorem isAbsolute_join_eq (h : q.isAbsolute = false) (p : Path) :
    (p.join q).isAbsolute = p.isAbsolute := by
  unfold join
  rw [if_neg (by simp [h])]
  unfold isAbsolute at h ⊢
  rcases htext : p.text.toList with _ | ⟨c, rest⟩
  · obtain rfl : p = empty := congrArg Path.mk (String.toList_inj.1 htext)
    simp [empty, h]
  · split_ifs <;> simp [htext]

/-- **The normal form of a path continued by a relative one** depends on its normal form alone. -/
theorem normalSteps_join (h : q.isAbsolute = false) (p : Path) :
    (p.join q).normalSteps = (q.strides.foldl Component.resolve p.normalSteps.reverse).reverse := by
  have hstart : (p.join q).start = p.start := by rw [start, isAbsolute_join_eq h, start]
  rw [normalSteps_eq_resolve, hstart, strides_join h, List.foldl_append, normalSteps_eq_resolve,
    List.reverse_reverse]

/-- **A relative path leads on from the place of the other one.** -/
theorem place_join (h : q.isAbsolute = false) (p : Path) :
    (p.join q).place = q.strides.foldl Component.follow p.place := by
  rw [place_eq_strides, strides_join h, List.foldl_append, ← place_eq_strides]

/-! ## Spelled paths -/

theorem strides_steps {cs : List Component} (h : ∀ c ∈ cs, c.IsStep) :
    (ofComponents cs).strides = cs := by
  rw [ofComponents_steps h, strides, text_ofSegments, Lead.chars, List.nil_append, steps_of_body h]

theorem not_isAbsolute_steps {cs : List Component} (h : ∀ c ∈ cs, c.IsStep) :
    (ofComponents cs).isAbsolute = false := by
  rw [ofComponents_steps h]
  exact not_isAbsolute_segments h

/-- Names are taken one after the other. -/
theorem foldl_resolve_names (names : List String) (taken : List Component) :
    (names.map Component.name).foldl Component.resolve taken =
      (names.map Component.name).reverse ++ taken := by
  induction names generalizing taken with
  | nil => rfl
  | cons n names ih =>
    rw [List.map_cons, List.foldl_cons, ih]
    simp [Component.resolve]

/-- Names are put behind the normal form. -/
theorem normalSteps_join_names (h : ∀ c ∈ names.map Component.name, c.IsStep) (p : Path) :
    (p.join (ofComponents (names.map .name))).normalSteps = p.normalSteps ++ names.map .name := by
  rw [normalSteps_join (not_isAbsolute_steps h), strides_steps h, foldl_resolve_names]
  simp

/-! ## Parents -/

theorem trimEnd_concat (segments : List (List Char)) (s : List Char) :
    trimEnd (segments ++ [s]) =
      if (componentOf? s).isNone then trimEnd segments else segments ++ [s] := by
  simp only [trimEnd, List.reverse_append, List.reverse_singleton, List.singleton_append,
    List.dropWhile_cons]
  split_ifs <;> simp

/-- What is trimmed are no strides. -/
theorem filterMap_trimEnd (segments : List (List Char)) :
    (trimEnd segments).filterMap componentOf? = segments.filterMap componentOf? := by
  induction segments using List.reverseRecOn with
  | nil => rfl
  | append_singleton before s ih =>
    rw [trimEnd_concat]
    split_ifs with hs
    · rw [ih, List.filterMap_append, List.filterMap_cons_none (Option.isNone_iff_eq_none.1 hs),
        List.filterMap_nil, List.append_nil]
    · rfl

theorem mem_of_mem_trimEnd {segments : List (List Char)} {s : List Char}
    (h : s ∈ trimEnd segments) : s ∈ segments := by
  rw [trimEnd, List.mem_reverse] at h
  exact List.mem_reverse.1 (List.dropWhile_sublist _ |>.subset h)

/-- Trimmed segments end in the last stride. -/
theorem exists_trimEnd {segments : List (List Char)} {before : List Component}
    (h : segments.filterMap componentOf? = before ++ [c]) :
    ∃ init last, trimEnd segments = init ++ [last] ∧ init.filterMap componentOf? = before := by
  induction segments using List.reverseRecOn with
  | nil => simp at h
  | append_singleton segments s ih =>
    rw [List.filterMap_append] at h
    rw [trimEnd_concat]
    cases hs : componentOf? s with
    | none =>
      rw [List.filterMap_cons_none hs, List.filterMap_nil, List.append_nil] at h
      simpa using ih h
    | some d =>
      rw [List.filterMap_cons_some hs, List.filterMap_nil] at h
      exact ⟨segments, s, rfl, (List.append_inj' h rfl).1⟩

/-- A path from the root that is spelled by any segments has the strides of these. -/
theorem strides_ofSegments_root {segments : List (List Char)} (h : ∀ s ∈ segments, '/' ∉ s) :
    (ofSegments .root segments).strides = segments.filterMap componentOf? := by
  rw [strides, text_ofSegments, Lead.chars, List.singleton_append,
    Text.splitOn_cons_self, List.filterMap_cons_none rfl]
  rcases eq_or_ne segments [] with rfl | hne
  · rfl
  · rw [Text.splitOn_intercalate hne h]

/-- **The parent of an absolute path** has one stride less. -/
theorem exists_parent? {before : List Component} (h : p.isAbsolute)
    (hs : p.strides = before ++ [c]) :
    ∃ parent, p.parent? = some parent ∧ parent.isAbsolute ∧ parent.strides = before := by
  obtain ⟨body, -, hlead⟩ := exists_splitLead h
  rw [strides, ← filterMap_splitLead, hlead] at hs
  obtain ⟨init, last, htrim, hinit⟩ := exists_trimEnd hs
  have hmem : ∀ s ∈ trimEnd init, '/' ∉ s := by
    intro s hs
    have hm : s ∈ trimEnd (splitOn '/' body) := by
      rw [htrim]
      exact List.mem_append_left _ (mem_of_mem_trimEnd hs)
    exact Text.not_mem_of_mem_splitOn (mem_of_mem_trimEnd hm)
  refine ⟨ofSegments .root (trimEnd init), ?_, ?_, ?_⟩
  · unfold parent?
    simp only [hlead, htrim]
    split
    · simp_all
    · simp_all
    · rw [List.dropLast_concat]
  · exact isAbsolute_iff.2 ⟨_, text_ofSegments _ _⟩
  · rw [strides_ofSegments_root hmem, filterMap_trimEnd, hinit]

/-- The parent of a path of names has one name less. -/
theorem parent?_names {n : String} (h : ∀ c ∈ (names ++ [n]).map Component.name, c.IsStep) :
    (ofComponents ((names ++ [n]).map .name)).parent? = some (ofComponents (names.map .name)) := by
  have hnames : ∀ c ∈ names.map Component.name, c.IsStep := fun c hc => h c (by simp_all)
  have hsegments : segmentsOf ((names ++ [n]).map .name) =
      segmentsOf (names.map .name) ++ [n.toList] := by
    simp [segmentsOf, Component.text]
  have hlead : splitLead (ofComponents ((names ++ [n]).map .name)).text.toList =
      (.none, intercalate ['/'] (segmentsOf ((names ++ [n]).map .name))) := by
    rw [ofComponents_steps h, text_ofSegments, Lead.chars, List.nil_append, splitLead_segments h]
  unfold parent?
  simp only [hlead, splitOn_segments h (by simp), trimEnd_segments h]
  rw [hsegments]
  split
  · simp_all
  · simp_all
  · rw [List.dropLast_concat, trimEnd_segments hnames, ofComponents_steps hnames]

end Path

end InterfaceGuards
