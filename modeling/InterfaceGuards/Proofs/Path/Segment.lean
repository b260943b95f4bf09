/-
  The segments of module specifiers.

  * `Text.segments`: what stands between the slashes of a text.
  * `Path.specifierSegments`: the segments of a specifier that takes given steps;
    `segments_of_moduleSpecifier?`: those from the directory to the target.
  * `wayBetween_of_inside`, `wayBetween_of_not_inside`: the steps to a target in a directory are
    names, and those to any other lead upwards first.
  * `moduleSpecifier?_relative_iff`: the first segment is `.` or `..`, and tells which of these the
    target is, unless it lies behind a name that begins with two dots.
-/
import InterfaceGuards.Proofs.Path.Arrival

namespace InterfaceGuards

namespace Text

/-- What stands between the slashes of a text. -/
def segments (text : String) : List String := (splitOn '/' text.toList).map String.ofList

theorem segments_dotted (text : String) : segments ("./" ++ text) = "." :: segments text := by
  simp [segments, splitOn]

/-- A text without a separator does not reach beyond the first one. -/
theorem prefix_append_cons_iff {c : Char} {first part rest : List Char} (h : c ∉ first) :
    first <+: part ++ c :: rest ↔ first <+: part := by
  constructor
  · intro hprefix
    rcases List.prefix_or_prefix_of_prefix hprefix (List.prefix_append part _) with hp | ⟨more, rfl⟩
    · exact hp
    · rw [List.prefix_append_right_inj] at hprefix
      cases more with
      | nil => simp
      | cons d more =>
        obtain ⟨rfl, -⟩ := List.cons_prefix_cons.1 hprefix
        exact absurd (by simp) h
  · exact fun hp => hp.trans (List.prefix_append _ _)

end Text

namespace Path

open Text (segments intercalate)

variable {p root directory target : Path} {cs : List Component} {specifier : String}
  {names : List String}

/-! ## Segments -/

/-- A path of steps is written with one segment for each. -/
theorem segments_slashed (h : ∀ c ∈ cs, c.IsStep) (hne : cs ≠ []) :
    segments (ofComponents cs).slashed = cs.map Component.text := by
  have htext : (ofComponents cs).slashed = (ofComponents cs).text :=
    congrArg Path.text (slashed_steps h)
  rw [segments, htext, ofComponents_steps h, text_ofSegments, Lead.chars, List.nil_append,
    splitOn_segments h hne, segmentsOf, List.map_map]
  simp [Function.comp_def]

/-- A path of steps begins with two dots if its first step does. -/
theorem dots_prefix_slashed {c : Component} (h : ∀ d ∈ c :: cs, d.IsStep) :
    ['.', '.'].isPrefixOf (ofComponents (c :: cs)).slashed.toList =
      ['.', '.'].isPrefixOf c.text.toList := by
  have htext : (ofComponents (c :: cs)).slashed = (ofComponents (c :: cs)).text :=
    congrArg Path.text (slashed_steps h)
  rw [htext, ofComponents_steps h, text_ofSegments, Lead.chars, List.nil_append, Bool.eq_iff_iff,
    List.isPrefixOf_iff_prefix, List.isPrefixOf_iff_prefix]
  rcases eq_or_ne cs [] with rfl | hne
  · rfl
  · rw [segmentsOf, List.map_cons, Text.intercalate_cons (by simpa using hne), List.append_assoc,
      List.singleton_append, Text.prefix_append_cons_iff (by decide)]

/-- The segments of a specifier that takes some steps: these steps, with a dot in front unless the
    first begins with two. -/
def specifierSegments : List Component → List String
  | [] => [".", ""]
  | c :: cs =>
    if ['.', '.'].isPrefixOf c.text.toList then (c :: cs).map Component.text
    else "." :: (c :: cs).map Component.text

/-- **The segments of a specifier** are those of the steps from the directory to the target without
    its source extension, and both are paths of one kind. -/
theorem segments_of_moduleSpecifier? (h : directory.moduleSpecifier? target = some specifier) :
    directory.isAbsolute = target.withoutSourceExtension.isAbsolute ∧
      segments specifier = specifierSegments
        (wayBetween directory.normalSteps target.withoutSourceExtension.normalSteps) := by
  obtain ⟨relative, hrelative, rfl⟩ := Option.map_eq_some_iff.1 h
  have hkind : directory.isAbsolute = target.withoutSourceExtension.isAbsolute := by
    by_contra hne
    rw [relativeTo?, if_neg hne] at hrelative
    cases hrelative
  have hsteps := isStep_of_mem_wayBetween hkind
  rw [relativeTo?_eq hkind] at hrelative
  obtain rfl := Option.some.inj hrelative
  refine ⟨hkind, ?_⟩
  generalize wayBetween directory.normalSteps target.withoutSourceExtension.normalSteps = cs
    at hsteps
  cases cs with
  | nil => rfl
  | cons c cs =>
    dsimp only [specifierSegments]
    rw [dots_prefix_slashed hsteps]
    split_ifs
    · exact segments_slashed hsteps (List.cons_ne_nil c cs)
    · rw [Text.segments_dotted, segments_slashed hsteps (List.cons_ne_nil c cs)]

/-! ## The ends of a way -/

theorem commonLength_le (as bs : List Component) : commonLength as bs ≤ as.length := by
  fun_induction commonLength as bs with
  | case1 a as bs ih => exact Nat.succ_le_succ ih
  | case2 => exact Nat.zero_le _
  | case3 => exact Nat.zero_le _

/-- The way on from a directory has the steps that are left. -/
theorem wayBetween_append_self (start rest : List Component) :
    wayBetween start (start ++ rest) = rest := by
  simpa [wayBetween, commonLength] using wayBetween_append start [] rest

/-- **In a directory the way is along names.** -/
theorem wayBetween_of_inside (h : p.normalSteps = root.normalSteps ++ names.map .name) :
    wayBetween root.normalSteps p.normalSteps = names.map .name := by
  rw [h, wayBetween_append_self]

/-- **Out of a directory the way first leads upwards.** -/
theorem wayBetween_of_not_inside (hkind : root.isAbsolute = p.isAbsolute) (h : ¬p.Inside root) :
    ∃ rest, wayBetween root.normalSteps p.normalSteps = .parent :: rest := by
  by_cases hprefix : root.normalSteps <+: p.normalSteps
  · -- It begins with the steps of the directory, but then it is astray.
    obtain ⟨c, rest, hsteps, hc⟩ := (inside_or_astray hprefix).resolve_left h
    have hway : wayBetween root.normalSteps p.normalSteps = c :: rest := by
      rw [hsteps, wayBetween_append_self]
    have hstep := isStep_of_mem_wayBetween hkind c (by rw [hway]; exact List.mem_cons_self)
    exact ⟨rest, by rw [hway, hc.resolve_right hstep.ne_root]⟩
  · have hshared : commonLength root.normalSteps p.normalSteps < root.normalSteps.length := by
      refine Nat.lt_of_le_of_ne (commonLength_le ..) fun heq => hprefix ?_
      have htake := take_commonLength root.normalSteps p.normalSteps
      rw [heq, List.take_length] at htake
      rw [htake]
      exact List.take_prefix _ _
    obtain ⟨n, hn⟩ := Nat.exists_eq_add_one.2 (Nat.sub_pos_of_lt hshared)
    rw [wayBetween, hn, List.replicate_succ]
    exact ⟨_, rfl⟩

/-- The way to what does not begin its start ends with the last step there. -/
theorem getLast?_wayBetween {start goal : List Component} {c : Component}
    (h : ¬goal ++ [c] <+: start) : (wayBetween start (goal ++ [c])).getLast? = some c := by
  have htake := take_commonLength start (goal ++ [c])
  simp only [wayBetween]
  generalize commonLength start (goal ++ [c]) = n at htake
  have hn : n ≤ goal.length := by
    by_contra hlt
    have hlong : (goal ++ [c]).length ≤ n := by
      rw [List.length_append, List.length_singleton]
      omega
    rw [List.take_of_length_le hlong] at htake
    exact h ⟨start.drop n, by rw [← htake, List.take_append_drop]⟩
  rw [List.drop_append_of_le_length hn, ← List.append_assoc, List.getLast?_append]
  rfl

/-- All steps back to what begins the start lead upwards. -/
theorem wayBetween_append_left (start rest : List Component) :
    wayBetween (start ++ rest) start = List.replicate rest.length .parent := by
  have hway := wayBetween_append start rest []
  rw [List.append_nil] at hway
  rw [hway, wayBetween, List.drop_nil, List.append_nil]
  cases rest <;> rfl

/-! ## The first segment of a specifier -/

/-- Lying in a directory, behind a name that begins with two dots. -/
def BehindDots (p root : Path) : Prop :=
  ∃ (name : String) (names : List String), ['.', '.'] <+: name.toList ∧
    p.normalSteps = root.normalSteps ++ (name :: names).map .name

theorem BehindDots.inside (h : p.BehindDots root) : p.Inside root := by
  obtain ⟨name, names, -, hsteps⟩ := h
  exact ⟨name :: names, hsteps⟩

/-- Which name counts is the next one. -/
theorem behindDots_iff {name : String}
    (h : p.normalSteps = root.normalSteps ++ (name :: names).map .name) :
    p.BehindDots root ↔ ['.', '.'].isPrefixOf name.toList := by
  rw [List.isPrefixOf_iff_prefix]
  constructor
  · rintro ⟨other, more, hprefix, hmore⟩
    rw [h, List.append_cancel_left_eq, List.map_cons, List.map_cons] at hmore
    obtain ⟨hname, -⟩ := List.cons.inj hmore
    rwa [Component.name.inj hname]
  · exact fun hprefix => ⟨name, names, hprefix, h⟩

/-- A name that is a step is none of the two that stand for a directory. -/
theorem ne_dots_of_isStep {name : String} (h : (Component.name name).IsStep) :
    name ≠ "" ∧ name ≠ "." ∧ name ≠ ".." := by
  refine ⟨?_, ?_, ?_⟩ <;>
  · rintro rfl
    exact absurd h.1 (by decide)

/-- **The first segment of a specifier** is one dot or two, and two exactly if the target without its
    source extension does not lie in the directory: exactly if it does not lie there behind a name
    that begins with two dots. -/
theorem moduleSpecifier?_relative_iff (h : directory.moduleSpecifier? target = some specifier) :
    (((segments specifier).head? = some "." ∨ (segments specifier).head? = some "..") ∧
        ((segments specifier).head? = some ".." ↔
          ¬target.withoutSourceExtension.Inside directory)) ↔
      ¬target.withoutSourceExtension.BehindDots directory := by
  obtain ⟨hkind, hsegments⟩ := segments_of_moduleSpecifier? h
  have hsteps := isStep_of_mem_wayBetween hkind
  rw [hsegments]
  by_cases hinside : target.withoutSourceExtension.Inside directory
  · obtain ⟨names, hnames⟩ := hinside
    have hin : target.withoutSourceExtension.Inside directory := ⟨names, hnames⟩
    rw [wayBetween_of_inside hnames] at hsteps ⊢
    cases names with
    | nil =>
      have hplain : ¬target.withoutSourceExtension.BehindDots directory := by
        rintro ⟨name, more, -, hmore⟩
        rw [hnames, List.append_cancel_left_eq] at hmore
        cases hmore
      simp [specifierSegments, hplain, hin]
    | cons name names =>
      obtain ⟨-, hdot, hdots⟩ := ne_dots_of_isStep (hsteps (.name name) (by simp))
      rw [behindDots_iff hnames, List.map_cons, specifierSegments]
      by_cases hprefix : ['.', '.'].isPrefixOf name.toList
      · simp [Component.text, hprefix, hin, hdot, hdots]
      · simp [Component.text, hprefix, hin]
  · obtain ⟨rest, hrest⟩ := wayBetween_of_not_inside hkind hinside
    have hplain : ¬target.withoutSourceExtension.BehindDots directory := fun hb => hinside hb.inside
    simp [hrest, specifierSegments, Component.text, hinside, hplain]

/-- A target behind a hidden directory is imported by a specifier that begins with one dot. -/
theorem moduleSpecifier?_relative_hidden :
    let directory : Path := ⟨"/p/a"⟩
    let target : Path := ⟨"/p/./a/.x/..y.ts"⟩
    directory.moduleSpecifier? target = some "./.x/..y" ∧
      ¬target.withoutSourceExtension.BehindDots directory ∧
      target.withoutSourceExtension.Inside directory ∧
      (segments "./.x/..y").head? = some "." := by
  intro directory target
  have hwritten : directory.moduleSpecifier? target = some "./.x/..y" := by decide +kernel
  have hsteps : target.withoutSourceExtension.normalSteps =
      directory.normalSteps ++ [".x", "..y"].map .name := by decide +kernel
  have hplain : ¬target.withoutSourceExtension.BehindDots directory := by
    rw [behindDots_iff hsteps]
    decide
  have hin : target.withoutSourceExtension.Inside directory := ⟨[".x", "..y"], hsteps⟩
  obtain ⟨hfirst, hclimbs⟩ := (moduleSpecifier?_relative_iff hwritten).2 hplain
  exact ⟨hwritten, hplain, hin, hfirst.resolve_right fun hdots => hclimbs.1 hdots hin⟩

/-- A unit that is named `..foo.ts` is imported from its own directory as `..foo`, as if that were a
    package. -/
theorem moduleSpecifier?_like_package :
    let directory : Path := ⟨"/p"⟩
    let target : Path := ⟨"/p/..foo.ts"⟩
    directory.moduleSpecifier? target = some "..foo" ∧ segments "..foo" = ["..foo"] ∧
      ¬((segments "..foo").head? = some "." ∨ (segments "..foo").head? = some "..") := by
  decide +kernel

end Path

end InterfaceGuards
