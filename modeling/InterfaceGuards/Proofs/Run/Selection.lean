/-
  The texts that units are selected by.

  * `SeenAs`: the text that a unit is to be selected by: what is left of its path below the base,
    or else the path as it is written.
  * `textOf_of_inside`, `textOf_relative_iff`, `textOf_absolute_iff`: the text that patterns see,
    beside that one.
  * `Glob.exists_parse?`: a text alone can be asked for.
  * `selects_seenAs_iff`: when every selection goes by the text that it is to go by;
    `outside_missed`: an absolute path outside of the base is missed by patterns for it.
-/
import InterfaceGuards.Proofs.Path.Arrival
import InterfaceGuards.Proofs.Path.Stem
import InterfaceGuards.Proofs.Path.Written
import InterfaceGuards.Proofs.Unit.Placement
import InterfaceGuards.Selection

namespace InterfaceGuards

open Pattern (Glob GlobPart)
open InterfaceGuards.Path (Component ofComponents)

/-! ## Globs for one text -/

namespace Pattern.Glob

/-- How a glob writes a character that is to stand for itself. -/
def quote (c : Char) : List Char := if c ∈ ['?', '*', '['] then ['[', c, ']'] else [c]

/-- The part that stands for one character. -/
def quoted (c : Char) : GlobPart := if c ∈ ['?', '*', '['] then .within [⟨c, c⟩] else .char c

theorem parseFrom_quote (previous : Option Char) (text : List Char) :
    parseFrom 0 previous (text.flatMap quote) = some (text.map quoted) := by
  induction text generalizing previous with
  | nil => simp [parseFrom]
  | cons c text ih =>
    by_cases hc : c ∈ ['?', '*', '[']
    · have hbracket : bracketPart? (c :: ']' :: text.flatMap quote) =
          some (.within [⟨c, c⟩], 2) := by
        have hne : c ≠ '!' := by
          rintro rfl
          simp at hc
        simp [bracketPart?, listed?, rangesOf, hne]
      simp [quote, quoted, hc, parseFrom, hbracket, ih]
    · simp only [List.mem_cons, List.not_mem_nil, or_false, not_or] at hc
      simp [quote, quoted, hc, parseFrom, ih]

theorem accepts_quoted_nil (c : Char) (glob : Glob) : accepts (quoted c :: glob) [] = false := by
  unfold quoted
  split_ifs <;> rfl

theorem accepts_quoted_cons (c d : Char) (glob : Glob) (text : List Char) :
    accepts (quoted c :: glob) (d :: text) = (decide (d = c) && accepts glob text) := by
  have hpart : (quoted c).accepts d = decide (d = c) := by
    unfold quoted
    split_ifs
    · simp only [GlobPart.accepts, CharRange.contains, List.any_cons, List.any_nil, Bool.or_false,
        ← Bool.decide_and, decide_eq_decide]
      exact ⟨fun h => Char.le_antisymm h.2 h.1, fun h => h ▸ ⟨Char.le_refl d, Char.le_refl d⟩⟩
    · exact decide_eq_decide.2 eq_comm
  rw [← hpart]
  unfold quoted
  split_ifs <;> rfl

theorem accepts_map_quoted (cs text : List Char) : accepts (cs.map quoted) text ↔ text = cs := by
  induction cs generalizing text with
  | nil => simp [accepts]
  | cons c cs ih =>
    rw [List.map_cons]
    cases text with
    | nil => simp [accepts_quoted_nil]
    | cons d text => simp [accepts_quoted_cons, ih]

/-- **For every text there is a glob** that it alone fits. -/
theorem exists_parse? (text : String) : ∃ pattern glob, parse? pattern = some glob ∧
    ∀ other, glob.accepts other ↔ other = text.toList :=
  ⟨String.ofList (text.toList.flatMap quote), text.toList.map quoted,
    by rw [parse?, String.toList_ofList, parseFrom_quote], accepts_map_quoted text.toList⟩

end Pattern.Glob

namespace Selection

open Text (joinWith)

variable {s : Selection} {base p : Path} {text : String}

/-! ## Selecting by a text -/

/-- Whether a text is let through: it fits one of `includes`, if there are any, and none of
    `excludes` is found in it. -/
def admits (s : Selection) (text : String) : Bool :=
  (s.includes.isEmpty || s.includes.any (·.accepts text.toList)) &&
    !s.excludes.any (·.foundIn text.toList)

theorem selects_eq (s : Selection) (p : Path) : s.selects p = s.admits (s.textOf p) := rfl

theorem base_of_ofPatterns {includes excludes : List String}
    (h : ofPatterns base includes excludes = .ok s) : s.base = base := by
  obtain ⟨globs, -, h⟩ := bind_eq_ok.1 h
  obtain ⟨regexes, -, h⟩ := bind_eq_ok.1 h
  cases h
  rfl

/-- **For every text there are patterns** that let it alone through. -/
theorem exists_ofPatterns (base : Path) (text : String) :
    ∃ pattern s, ofPatterns base [pattern] [] = .ok s ∧
      ∀ other, s.admits other ↔ other = text := by
  obtain ⟨pattern, glob, hparse, haccepts⟩ := Glob.exists_parse? text
  refine ⟨pattern, ⟨base, [glob], []⟩, ?_, fun other => ?_⟩
  · simp [ofPatterns, readGlob, hparse, bind, Except.bind, pure, Except.pure]
  · simp [admits, haccepts, String.toList_inj]

/-! ## The text that patterns see -/

/-- The text that a path is to be selected by: what is left of it below the base, or else the path
    as it is written. -/
inductive SeenAs (base p : Path) : String → Prop
  | inside (names : List String) (h : p.normalSteps = base.normalSteps ++ names.map .name) :
      SeenAs base p (joinWith "/" names)
  | outside (h : ¬p.Inside base) : SeenAs base p p.asWritten

/-- There is always one such text. -/
theorem existsUnique_seenAs (base p : Path) : ∃! text, SeenAs base p text := by
  by_cases h : p.Inside base
  · obtain ⟨names, hnames⟩ := h
    refine ⟨_, .inside names hnames, fun text htext => ?_⟩
    cases htext with
    | inside others hothers =>
      rw [hnames, List.append_cancel_left_eq] at hothers
      rw [List.map_injective_iff.2 (fun a b h => Component.name.inj h) hothers]
    | outside hout => exact absurd ⟨names, hnames⟩ hout
  · refine ⟨_, .outside h, fun text htext => ?_⟩
    cases htext with
    | inside names hnames => exact absurd ⟨names, hnames⟩ h
    | outside => rfl

/-- **Inside of the base** patterns see what is left below it. -/
theorem textOf_of_inside {names : List String}
    (h : p.normalSteps = s.base.normalSteps ++ names.map .name) :
    s.textOf p = joinWith "/" names := by
  have hsteps : ∀ c ∈ names.map Component.name, c.IsStep := by
    intro c hc
    obtain ⟨n, -, rfl⟩ := List.mem_map.1 hc
    exact Path.isStep_of_mem_normalSteps (by rw [h]; exact List.mem_append_right _ hc)
  rw [textOf, Path.below?_of_prefix h, Option.getD_some, Path.slashed_ofComponents hsteps,
    List.map_map]
  congr 1
  exact List.map_id names

theorem textOf_of_apart (h : ¬s.base.normalSteps <+: p.normalSteps) : s.textOf p = p.slashed := by
  rw [textOf, Path.below?_eq_none h, Option.getD_none]

/-- **A relative path outside of the base** is seen as it is written, unless it is astray: then what
    is left of its normal form is seen. -/
theorem textOf_relative_iff (hp : p.isAbsolute = false) (hout : ¬p.Inside s.base) :
    s.textOf p = p.asWritten ↔
      ¬p.Astray s.base ∨ (s.base.normalSteps = [] ∧ p.components = p.normalSteps) := by
  rw [Path.asWritten_relative hp]
  by_cases hastray : p.Astray s.base
  · obtain ⟨c, rest, hrest, -⟩ := id hastray
    have hsteps : ∀ d ∈ c :: rest, d.IsStep := fun d hd =>
      Path.isStep_of_mem_normalSteps_relative hp d
        (by rw [hrest]; exact List.mem_append_right _ hd)
    have htext : s.textOf p = joinWith "/" ((c :: rest).map Component.text) := by
      rw [textOf, Path.below?_of_prefix hrest, Option.getD_some, Path.slashed_ofComponents hsteps]
    rw [htext]
    constructor
    · intro heq
      have hcomponents := Path.components_of_slashed hp hsteps (List.cons_ne_nil c rest) heq.symm
      -- The normal form would have more steps than the path, if the base had any.
      have hlength := Path.length_normalSteps_le p
      rw [hrest, hcomponents, List.length_append] at hlength
      have hbase : s.base.normalSteps = [] := List.eq_nil_of_length_eq_zero (by omega)
      exact .inr ⟨hbase, by rw [hcomponents, hrest, hbase, List.nil_append]⟩
    · rintro (hnot | ⟨hbase, hnormal⟩)
      · exact absurd hastray hnot
      · rw [Path.slashed, hnormal, hrest, hbase, List.nil_append]
  · have hapart : ¬s.base.normalSteps <+: p.normalSteps := fun hprefix =>
      (Path.inside_or_astray hprefix).elim hout hastray
    simp [textOf_of_apart hapart, hastray]

/-- **An absolute path outside of the base** is seen with two slashes in front, unless it is the
    root. -/
theorem textOf_absolute_iff (hp : p.isAbsolute) (hout : ¬p.Inside s.base) :
    s.textOf p = p.asWritten ↔ p.components = [.root] := by
  have hcomponents := Path.components_eq_strides hp
  have hstrides : ∀ c ∈ p.strides, c.IsStep := fun c hc => Path.isStep_of_mem_strides hc
  -- Astray or not, some absolute path is shown.
  obtain ⟨q, cs, htext, hq, hcs⟩ : ∃ (q : Path) (cs : List Component), s.textOf p = q.slashed ∧
      q.components = .root :: cs ∧ (p.strides = [] → cs = []) := by
    by_cases hastray : p.Astray s.base
    · have hbelow : p.normalSteps = s.base.normalSteps ++ .root :: p.place.map .name := by
        rw [hastray.of_isAbsolute hp, List.nil_append, Path.normalSteps_eq hp]
      refine ⟨_, _, by rw [textOf, Path.below?_of_prefix hbelow, Option.getD_some],
        Path.components_root (Path.isStep_of_mem_place hp), fun hnone => ?_⟩
      rw [Path.place_eq_strides, hnone]
      rfl
    · have hapart : ¬s.base.normalSteps <+: p.normalSteps := fun hprefix =>
        (Path.inside_or_astray hprefix).elim hout hastray
      exact ⟨p, _, textOf_of_apart hapart, hcomponents, id⟩
  rw [htext, Path.asWritten_absolute hp hcomponents hstrides, hcomponents, List.cons_eq_cons,
    eq_self, true_and, ← Path.joinWith_eq_empty_iff hstrides]
  constructor
  · intro heq
    rcases eq_or_ne cs [] with rfl | hne
    · rw [Path.slashed_root_nil hq, ← String.append_empty (s := "/"), String.append_assoc,
        String.append_right_inj, String.empty_append] at heq
      exact heq.symm
    · rw [Path.slashed_root hq hne, String.append_right_inj] at heq
      exact absurd heq (Path.slash_append_ne hstrides _)
  · intro hempty
    rw [hcs ((Path.joinWith_eq_empty_iff hstrides).1 hempty)] at hq
    rw [Path.slashed_root_nil hq, hempty]
    rfl

/-! ## Selecting by what is seen -/

theorem textOf_congr {other : Selection} (h : s.base = other.base) (p : Path) :
    s.textOf p = other.textOf p := by
  rw [textOf, textOf, h]

/-- **All selections go by a text**, exactly if it is the one that patterns see. -/
theorem forall_selects_iff (s : Selection) (p : Path) (text : String) :
    (∀ includes excludes other, ofPatterns s.base includes excludes = .ok other →
      other.selects p = other.admits text) ↔ s.textOf p = text := by
  constructor
  · intro h
    obtain ⟨pattern, other, hother, honly⟩ := exists_ofPatterns s.base (s.textOf p)
    have hselects := h _ _ _ hother
    rw [selects_eq, textOf_congr (base_of_ofPatterns hother), (honly _).2 rfl] at hselects
    exact ((honly text).1 hselects.symm).symm
  · rintro rfl includes excludes other hother
    rw [selects_eq, textOf_congr (base_of_ofPatterns hother)]

/-- **Every selection goes by the text that a path is to be selected by**, exactly if the path lies
    inside of the base, is the root, or is relative and not astray; or is astray of a base without
    steps and in normal form. -/
theorem selects_seenAs_iff (base p : Path) :
    (∃! text, SeenAs base p text) ∧
      ((∀ includes excludes s text, ofPatterns base includes excludes = .ok s →
          SeenAs base p text → s.selects p = s.admits text) ↔
        p.Inside base ∨ p.components = [.root] ∨
          (p.isAbsolute = false ∧
            (¬p.Astray base ∨ (base.normalSteps = [] ∧ p.components = p.normalSteps)))) := by
  refine ⟨existsUnique_seenAs base p, ?_⟩
  obtain ⟨text, hseen, hunique⟩ := existsUnique_seenAs base p
  have hsees : (∀ includes excludes s text, ofPatterns base includes excludes = .ok s →
      SeenAs base p text → s.selects p = s.admits text) ↔
        textOf ⟨base, [], []⟩ p = text := by
    rw [← forall_selects_iff]
    exact ⟨fun h includes excludes s hs => h includes excludes s text hs hseen,
      fun h includes excludes s other hs hother => hunique other hother ▸ h includes excludes s hs⟩
  rw [hsees]
  cases hseen with
  | inside names hnames =>
    have hin : p.Inside base := ⟨names, hnames⟩
    simp [hin, textOf_of_inside (s := ⟨base, [], []⟩) hnames]
  | outside hout =>
    cases hp : p.isAbsolute with
    | true => simp [textOf_absolute_iff (s := ⟨base, [], []⟩) hp hout, hout]
    | false =>
      have hroot : p.components ≠ [.root] := fun hroot =>
        Path.ne_root_of_relative hp (by rw [hroot]; exact List.mem_singleton_self _) rfl
      simp [textOf_relative_iff (s := ⟨base, [], []⟩) hp hout, hout, hroot]

/-- Patterns for an absolute path outside of the base, as it is written, neither select nor exclude
    it: two slashes in front are seen. -/
theorem outside_missed :
    let base : Path := ⟨"/p"⟩
    let unit : Path := ⟨"/q/a.ts"⟩
    unit.isAbsolute ∧ ¬unit.Inside base ∧ SeenAs base unit "/q/a.ts" ∧
      (∃ s, ofPatterns base ["/q/*.ts"] [] = .ok s ∧ s.textOf unit = "//q/a.ts" ∧
        s.admits "/q/a.ts" = true ∧ s.selects unit = false) ∧
      ∃ s, ofPatterns base [] ["^/q/"] = .ok s ∧
        s.admits "/q/a.ts" = false ∧ s.selects unit = true := by
  intro base unit
  have hout : ¬unit.Inside base := by
    rintro ⟨names, hnames⟩
    have hprefix : base.normalSteps.isPrefixOf unit.normalSteps := by
      rw [hnames, List.isPrefixOf_iff_prefix]
      exact List.prefix_append _ _
    exact absurd hprefix (by decide +kernel)
  have hwritten : unit.asWritten = "/q/a.ts" := by decide +kernel
  have hseen : SeenAs base unit "/q/a.ts" := hwritten ▸ .outside hout
  exact ⟨by decide, hout, hseen, ⟨_, rfl, by decide +kernel⟩, ⟨_, rfl, by decide +kernel⟩⟩

end Selection

end InterfaceGuards
