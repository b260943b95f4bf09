/-
  Paths of names below a directory.

  * `Path.names`, `Path.IsPlain`: paths that are spelled by names alone.
  * `Path.IsRooted`: absolute paths that are spelled step by step.
  * `stepsOf_root`, `fits_root`: how spelled paths are followed, and when they fit.
  * `Path.Below`: what a plain path is, seen from a directory: its place, its parent and the ways
    to both.
-/
import InterfaceGuards.Proofs.FileTree.Locate

namespace InterfaceGuards

namespace Text

theorem mem_intercalate {c d : Char} {parts : List (List Char)} (h : d ≠ c) :
    d ∈ intercalate [c] parts ↔ ∃ part ∈ parts, d ∈ part := by
  induction parts with
  | nil => simp [intercalate]
  | cons part parts ih =>
    rcases eq_or_ne parts [] with rfl | hne
    · simp [intercalate]
    · rw [intercalate_cons hne, List.mem_append, List.mem_append, ih]
      simp [h]

end Text

namespace Path

open FileTree (stepOf stepsOf)
open Component (follow passed)

variable {p dest : Path} {y : Location} {c : Component} {cs : List Component}

/-! ## Following spelled paths -/

/-- Neither to too long a name nor to one with a character that no name can have. -/
def Component.Admitted (c : Component) : Prop := c.Fits ∧ '\x00' ∉ c.text.toList

theorem Component.IsStep.stepOf_text (h : c.IsStep) : stepOf c.text.toList = c := by
  have hc := h.1
  unfold componentOf? at hc
  unfold stepOf
  split_ifs at hc ⊢ with hnone hparent
  · exact Option.some.inj hc
  · exact Option.some.inj hc

theorem map_stepOf_segments (h : ∀ c ∈ cs, c.IsStep) : (segmentsOf cs).map stepOf = cs := by
  rw [segmentsOf, List.map_map]
  exact (List.map_congr_left fun c hc => (h c hc).stepOf_text).trans (List.map_id cs)

theorem stepsOf_steps (h : ∀ c ∈ cs, c.IsStep) (hne : cs ≠ []) :
    stepsOf (ofComponents cs) = cs := by
  rw [stepsOf, ofComponents_steps h, text_ofSegments, Lead.chars, List.nil_append,
    splitOn_segments h hne, map_stepOf_segments h]

/-- A spelled path is followed step by step; the slash in front stays at the root. -/
theorem stepsOf_root (h : ∀ c ∈ cs, c.IsStep) (hne : cs ≠ []) :
    stepsOf (ofComponents (.root :: cs)) = .current :: cs := by
  rw [stepsOf, ofComponents_root h, text_ofSegments, Lead.chars, List.singleton_append,
    Text.splitOn_cons_self, List.map_cons, splitOn_segments h hne, map_stepOf_segments h]
  rfl

theorem not_mem_text_iff (cs : List Component) (lead : Lead) :
    '\x00' ∉ (ofSegments lead (segmentsOf cs)).text.toList ↔
      ∀ c ∈ cs, '\x00' ∉ c.text.toList := by
  have hlead : '\x00' ∉ lead.chars := by cases lead <;> decide
  rw [text_ofSegments, List.mem_append, Text.mem_intercalate (by decide)]
  simp [hlead, segmentsOf]

/-- A spelled path fits when all its steps do. -/
theorem fits_root (h : ∀ c ∈ cs, c.IsStep) :
    (ofComponents (.root :: cs)).Fits ↔ ∀ c ∈ cs, c.Admitted := by
  rcases eq_or_ne cs [] with rfl | hne
  · simp only [List.not_mem_nil, false_implies, implies_true, iff_true]
    decide
  · unfold Fits
    rw [stepsOf_root h hne, ofComponents_root h, not_mem_text_iff]
    simp only [List.mem_cons, forall_eq_or_imp, Component.Admitted]
    constructor
    · rintro ⟨hnul, -, hfits⟩ c hc
      exact ⟨hfits c hc, hnul c hc⟩
    · intro hall
      exact ⟨fun c hc => (hall c hc).2, trivial, fun c hc => (hall c hc).1⟩

theorem fits_steps (h : ∀ c ∈ cs, c.IsStep) (hne : cs ≠ []) :
    (ofComponents cs).Fits ↔ ∀ c ∈ cs, c.Admitted := by
  unfold Fits
  rw [stepsOf_steps h hne, ofComponents_steps h, not_mem_text_iff]
  simp only [Component.Admitted]
  constructor
  · rintro ⟨hnul, hfits⟩ c hc
    exact ⟨hfits c hc, hnul c hc⟩
  · intro hall
    exact ⟨fun c hc => (hall c hc).2, fun c hc => (hall c hc).1⟩

/-! ## Plain paths -/

/-- The name that a step leads to. -/
def Component.name? : Component → Option String
  | .name text => some text
  | _ => none

/-- The names among the steps of a path. -/
def names (p : Path) : List String := p.components.filterMap Component.name?

/-- Spelled by names alone, of which there are some. -/
def IsPlain (p : Path) : Prop := p.names ≠ [] ∧ p = ofComponents (p.names.map .name)

instance (p : Path) : Decidable p.IsPlain := inferInstanceAs (Decidable (_ ∧ _))

/-- The names of any path are steps. -/
theorem isStep_of_mem_names : ∀ c ∈ p.names.map Component.name, c.IsStep := by
  intro c hc
  obtain ⟨n, hn, rfl⟩ := List.mem_map.1 hc
  obtain ⟨d, hd, hname⟩ := List.mem_filterMap.1 hn
  cases d with
  | name text =>
    cases hname
    exact isStep_of_mem_components hd (by simp) (by simp)
  | _ => cases hname

theorem filterMap_name? (names : List String) :
    (names.map Component.name).filterMap Component.name? = names := by
  rw [List.filterMap_map]
  exact List.filterMap_some

theorem components_of_isPlain (h : p.IsPlain) : p.components = p.names.map .name := by
  conv_lhs => rw [h.2]
  exact components_ofComponents isStep_of_mem_names

/-- **What is spelled from names is plain.** -/
theorem isPlain_ofComponents {names : List String} (hne : names ≠ [])
    (h : ∀ c ∈ names.map Component.name, c.IsStep) :
    (ofComponents (names.map .name)).IsPlain ∧ (ofComponents (names.map .name)).names = names := by
  have hnames : (ofComponents (names.map .name)).names = names := by
    rw [Path.names, components_ofComponents h, filterMap_name?]
  refine ⟨⟨?_, ?_⟩, hnames⟩
  · rwa [hnames]
  · rw [hnames]

/-- A plain path is shown as its names with slashes between. -/
theorem slashed_of_isPlain (h : p.IsPlain) : p.slashed = Text.joinWith "/" p.names := by
  have htexts : (p.names.map Component.name).map Component.text = p.names := by
    rw [List.map_map]
    exact List.map_id p.names
  rw [slashed, components_of_isPlain h, htexts]

/-! ## Below a directory -/

/-- Absolute and spelled step by step. -/
def IsRooted (p : Path) : Prop := ∃ cs, (∀ c ∈ cs, c.IsStep) ∧ p = ofComponents (.root :: cs)

theorem IsRooted.isAbsolute (h : p.IsRooted) : p.isAbsolute := by
  obtain ⟨cs, hcs, rfl⟩ := h
  exact isAbsolute_ofComponents hcs

theorem isRooted_absoluteFrom {dir : Path} (h : dir.isAbsolute) (p : Path) :
    (p.absoluteFrom dir).IsRooted := by
  obtain ⟨cs, hcs, -, heq⟩ := absoluteFrom_eq h p
  exact ⟨cs, hcs, heq⟩

theorem prefix_before_iff {first before : List String} {n : String} :
    first <+: before ↔ first <+: before ++ [n] ∧ first ≠ before ++ [n] := by
  rw [List.prefix_concat_iff]
  constructor
  · intro h
    refine ⟨.inr h, ?_⟩
    rintro rfl
    have hlength := h.length_le
    rw [List.length_append, List.length_singleton] at hlength
    exact absurd hlength (Nat.not_succ_le_self _)
  · rintro ⟨rfl | h, hne⟩
    · exact absurd rfl hne
    · exact h

theorem mem_passed_current :
    y ∈ passed [] (.current :: cs) ↔ y ∈ passed [] cs := by
  rw [Component.passed_cons, List.mem_cons]
  constructor
  · rintro (rfl | h)
    · exact Component.mem_passed_self
    · exact h
  · exact .inr

theorem mem_way_root (h : ∀ c ∈ cs, c.IsStep) :
    y ∈ (ofComponents (.root :: cs)).way ↔ y ∈ passed [] cs :=
  mem_way_iff (isAbsolute_ofComponents h) (components_root h)

theorem place_root (h : ∀ c ∈ cs, c.IsStep) :
    (ofComponents (.root :: cs)).place = cs.foldl follow [] :=
  place_eq_foldl (isAbsolute_ofComponents h) (components_root h)

/-- What a plain path `p` is below a directory, and what its parent is: where it leads, and what is
    passed on the way. -/
structure Below (dest p path parent : Path) : Prop where
  parent_eq : path.parent? = some parent
  place_eq : path.place = dest.place ++ p.names
  fits_iff : path.Fits ↔ dest.Fits ∧ p.Fits
  parent_fits : path.Fits → parent.Fits
  mem_passed_iff : ∀ {y}, y ∈ passed [] (stepsOf path).dropLast ↔ y ∈ parent.way
  mem_way_iff : ∀ {y}, y ∈ parent.way ↔
    y ∈ dest.way ∨ ∃ first, first <+: p.names ∧ first ≠ p.names ∧ dest.place ++ first = y

/-- **A plain path below a directory leads to its names below the place of the directory.** -/
theorem exists_below (hd : dest.IsRooted) (hp : p.IsPlain) :
    ∃ parent, Below dest p (dest.join p) parent := by
  obtain ⟨cs, hcs, rfl⟩ := hd
  obtain ⟨before, n, hnames⟩ : ∃ before n, p.names = before ++ [n] := by
    simpa using (List.eq_nil_or_concat p.names).resolve_left hp.1
  have hsteps := isStep_of_mem_names (p := p)
  have hspell := hp.2
  rw [hnames] at hsteps hspell
  have hbefore : ∀ c ∈ before.map Component.name, c.IsStep := fun c hc => hsteps c (by simp_all)
  have hn : (Component.name n).IsStep := hsteps _ (by simp)
  have hparent : ∀ c ∈ cs ++ before.map Component.name, c.IsStep :=
    fun c hc => (List.mem_append.1 hc).elim (hcs c) (hbefore c)
  have hall : ∀ c ∈ cs ++ (before ++ [n]).map Component.name, c.IsStep :=
    fun c hc => (List.mem_append.1 hc).elim (hcs c) (hsteps c)
  have hsplit : cs ++ (before ++ [n]).map Component.name =
      cs ++ before.map Component.name ++ [.name n] := by simp
  have hjoin : (ofComponents (.root :: cs)).join p =
      ofComponents (.root :: (cs ++ (before ++ [n]).map .name)) := by
    rw [hspell, join_ofComponents hcs hsteps (by simp)]
  rw [hjoin]
  refine ⟨ofComponents (.root :: (cs ++ before.map .name)), ?_, ?_, ?_, ?_, ?_, ?_⟩
  · rw [hsplit]
    exact parent?_ofComponents hparent hn
  · rw [place_root hall, place_root hcs, List.foldl_append, Component.foldl_follow_names, hnames]
  · rw [hspell, fits_root hall, fits_root hcs, fits_steps hsteps (by simp)]
    simp only [List.mem_append, or_imp, forall_and]
  · rw [fits_root hall, fits_root hparent, hsplit]
    intro h c hc
    exact h c (List.mem_append_left _ hc)
  · intro y
    rw [stepsOf_root hall (by simp), hsplit, ← List.cons_append, List.dropLast_concat,
      mem_passed_current, mem_way_root hparent]
  · intro y
    rw [mem_way_root hparent, mem_way_root hcs, Component.mem_passed_append,
      Component.mem_passed_names, place_root hcs, hnames]
    refine or_congr Iff.rfl (exists_congr fun first => ?_)
    rw [prefix_before_iff (n := n), and_assoc]

end Path

end InterfaceGuards
