/-
  The modules that specifiers name.

  * `Path.lastSegment?`: what stands behind the last slash of a specifier;
    `getLast?_specifierSegments`: it spells the last step that the specifier takes.
  * `Path.DesignatesDirectory`: a specifier behind whose last slash there is no name.
  * `lastSegment?_cases`: the specifier of a unit ends in the stem of the unit, unless the importing
    directory lies in the unit without its extension.
  * `exists_strides_extended`: the steps of a specifier with an extension put behind it;
    `extended_leads_iff`: they lead to the unit just when the specifier ends in its stem.
-/
import InterfaceGuards.Proofs.Path.Segment
import InterfaceGuards.Proofs.Path.Stem

namespace InterfaceGuards

namespace Text

theorem intercalate_concat_append {separator part tail : List Char} {parts : List (List Char)} :
    intercalate separator (parts ++ [part ++ tail]) =
      intercalate separator (parts ++ [part]) ++ tail := by
  rcases eq_or_ne parts [] with rfl | hne
  · rfl
  · rw [intercalate_append hne (by simp), intercalate_append hne (by simp)]
    simp [intercalate]

/-- What holds no separator only makes the last part longer. -/
theorem splitOn_append_tail {c : Char} {cs part tail : List Char} {parts : List (List Char)}
    (h : splitOn c cs = parts ++ [part]) (ht : c ∉ tail) :
    splitOn c (cs ++ tail) = parts ++ [part ++ tail] := by
  have hparts : ∀ s ∈ parts ++ [part ++ tail], c ∉ s := by
    have hall : ∀ s ∈ parts ++ [part], c ∉ s := fun s hs => not_mem_of_mem_splitOn (h ▸ hs)
    intro s hs
    rcases List.mem_append.1 hs with hs | hs
    · exact hall s (List.mem_append_left _ hs)
    · rw [List.mem_singleton.1 hs, List.mem_append]
      exact fun hmem => hmem.elim (hall part (by simp)) ht
  rw [← splitOn_intercalate (by simp) hparts, intercalate_concat_append, ← h, intercalate_splitOn]

end Text

namespace Path

open Component (follow)
open Text (segments splitOn)

variable {directory target : Path} {cs : List Component} {specifier stem extension : String}
  {before : Location}

/-! ## The last segment -/

/-- What stands behind the last slash of a specifier. -/
def lastSegment? (specifier : String) : Option String := (segments specifier).getLast?

/-- A specifier that designates a directory: behind its last slash there is no name. -/
def DesignatesDirectory (specifier : String) : Prop :=
  ∃ last ∈ lastSegment? specifier, last = "" ∨ last = "." ∨ last = ".."

/-- **The last segment spells the last step.** -/
theorem getLast?_specifierSegments (cs : List Component) :
    (specifierSegments cs).getLast? = some ((cs.getLast?.map Component.text).getD "") := by
  cases cs with
  | nil => rfl
  | cons c cs =>
    rw [specifierSegments]
    split_ifs
    · rw [List.getLast?_map, List.getLast?_cons]
      rfl
    · rw [List.map_cons, List.getLast?_cons_cons, ← List.map_cons, List.getLast?_map,
        List.getLast?_cons]
      rfl

/-! ## Specifiers of units -/

/-- Every specifier begins with a dot. -/
theorem exists_dot_of_moduleSpecifier? (h : directory.moduleSpecifier? target = some specifier) :
    ∃ rest, specifier.toList = '.' :: rest := by
  obtain ⟨relative, -, rfl⟩ := Option.map_eq_some_iff.1 h
  dsimp only
  split_ifs with hprefix
  · obtain ⟨rest, hrest⟩ := List.isPrefixOf_iff_prefix.1 hprefix
    exact ⟨'.' :: rest, hrest.symm⟩
  · exact ⟨'/' :: relative.slashed.toList, by simp⟩

/-- A specifier is computed from the normal forms alone. -/
theorem moduleSpecifier?_congr {here : Path} (hkind : here.isAbsolute = directory.isAbsolute)
    (hsame : here.normalSteps = directory.normalSteps) :
    here.moduleSpecifier? target = directory.moduleSpecifier? target := by
  simp only [moduleSpecifier?, relativeTo?, hkind, hsame]

section
variable (ht : target.isAbsolute) (h : directory.moduleSpecifier? target = some specifier)
  (hplace : target.withoutSourceExtension.place = before ++ [stem])
include ht h hplace

/-- **The last segment of the specifier of a unit**: the stem of the unit, unless the directory lies
    in the unit without its extension, where there is nothing or two dots. -/
theorem lastSegment?_cases :
    (directory.Inside target.withoutSourceExtension ∧
        (lastSegment? specifier = some "" ∨ lastSegment? specifier = some "..")) ∨
      (¬directory.Inside target.withoutSourceExtension ∧ lastSegment? specifier = some stem) := by
  have hlast : lastSegment? specifier = some (((wayBetween directory.normalSteps
      target.withoutSourceExtension.normalSteps).getLast?.map Component.text).getD "") := by
    rw [lastSegment?, (segments_of_moduleSpecifier? h).2, getLast?_specifierSegments]
  have habsolute := isAbsolute_withoutSourceExtension ht
  by_cases hin : directory.Inside target.withoutSourceExtension
  · refine .inl ⟨hin, ?_⟩
    obtain ⟨names, hnames⟩ := hin
    rw [hlast, hnames, wayBetween_append_left, List.length_map]
    cases names with
    | nil => exact .inl rfl
    | cons name names => exact .inr (by simp [List.getLast?_replicate, Component.text])
  · refine .inr ⟨hin, ?_⟩
    have hgoal : target.withoutSourceExtension.normalSteps =
        (.root :: before.map .name) ++ [.name stem] := by
      rw [normalSteps_eq habsolute, hplace, List.map_append]
      rfl
    have hapart : ¬(.root :: before.map .name) ++ [.name stem] <+: directory.normalSteps := by
      rw [← hgoal]
      exact fun hprefix =>
        (inside_or_astray hprefix).elim hin (not_astray_of_isAbsolute habsolute)
    rw [hlast, hgoal, getLast?_wayBetween hapart]
    rfl

/-- It is the stem only outside. -/
theorem lastSegment?_eq_stem_iff (hnil : stem ≠ "") (hdots : stem ≠ "..") :
    lastSegment? specifier = some stem ↔ ¬directory.Inside target.withoutSourceExtension := by
  rcases lastSegment?_cases ht h hplace with ⟨hin, hlast | hlast⟩ | ⟨hout, hlast⟩
  · simp [hin, hlast, hnil.symm]
  · simp [hin, hlast, hdots.symm]
  · simp [hout, hlast]

/-- It is no name only inside. -/
theorem designatesDirectory_iff (hnil : stem ≠ "") (hdot : stem ≠ ".") (hdots : stem ≠ "..") :
    DesignatesDirectory specifier ↔ directory.Inside target.withoutSourceExtension := by
  rcases lastSegment?_cases ht h hplace with ⟨hin, hlast | hlast⟩ | ⟨hout, hlast⟩
  · simp [DesignatesDirectory, hin, hlast]
  · simp [DesignatesDirectory, hin, hlast]
  · simp [DesignatesDirectory, hout, hlast, hnil, hdot, hdots]

end

/-! ## With the extension -/

/-- **A specifier with an extension put behind it** takes the same steps, but for the last one, which
    has the extension behind its name. -/
theorem exists_strides_extended {last : String} (hlast : lastSegment? specifier = some last)
    (hextension : extension ∈ ["ts", "tsx"]) :
    ∃ init, (⟨specifier⟩ : Path).strides = init ++ (componentOf? last.toList).toList ∧
      (⟨specifier ++ "." ++ extension⟩ : Path).strides =
        init ++ [.name (last ++ "." ++ extension)] := by
  obtain ⟨parts, hsplit⟩ : ∃ parts, splitOn '/' specifier.toList = parts ++ [last.toList] := by
    rw [lastSegment?, segments, List.getLast?_map] at hlast
    obtain ⟨part, hpart, rfl⟩ := Option.map_eq_some_iff.1 hlast
    obtain ⟨parts, hparts⟩ := List.getLast?_eq_some_iff.1 hpart
    exact ⟨parts, by rw [hparts, String.toList_ofList]⟩
  have hslash : '/' ∉ ".".toList ++ extension.toList := by
    simp only [List.mem_cons, List.not_mem_nil, or_false] at hextension
    rcases hextension with rfl | rfl <;> decide
  have hlong : splitOn '/' (specifier ++ "." ++ extension).toList =
      parts ++ [(last ++ "." ++ extension).toList] := by
    rw [String.toList_append, String.toList_append, List.append_assoc,
      Text.splitOn_append_tail hsplit hslash]
    simp
  have hend : (last ++ "." ++ extension).toList.getLast? ≠ some '.' ∧
      (last ++ "." ++ extension).toList.getLast? ≠ none := by
    simp only [List.mem_cons, List.not_mem_nil, or_false] at hextension
    rcases hextension with rfl | rfl <;> simp
  have hname : componentOf? (last ++ "." ++ extension).toList =
      some (.name (last ++ "." ++ extension)) := by
    apply componentOf?_name
    · exact fun heq => hend.2 (by rw [heq]; rfl)
    · exact fun heq => hend.1 (by rw [heq]; rfl)
    · exact fun heq => hend.1 (by rw [heq]; rfl)
  refine ⟨parts.filterMap componentOf?, ?_, ?_⟩
  · rw [strides, hsplit, List.filterMap_append, filterMap_cons_toList, List.filterMap_nil,
      List.append_nil]
  · rw [strides, hlong, List.filterMap_append, List.filterMap_cons_some hname, List.filterMap_nil]

/-- **With the extension of a unit behind it a specifier leads to the unit** if it ends in the stem of
    the unit, and only then. -/
theorem extended_leads_iff (hd : directory.isAbsolute) (ht : target.isAbsolute)
    (h : directory.moduleSpecifier? target = some specifier) (hextension : extension ∈ ["ts", "tsx"])
    (hplace : target.place = before ++ [stem ++ "." ++ extension])
    (hshort : target.withoutSourceExtension.place = before ++ [stem])
    (hname : componentOf? stem.toList = some (.name stem)) :
    (directory.join ⟨specifier ++ "." ++ extension⟩).normalSteps = target.normalSteps ↔
      lastSegment? specifier = some stem := by
  obtain ⟨last, hlast⟩ : ∃ last, lastSegment? specifier = some last := by
    rw [lastSegment?, segments, List.getLast?_map]
    exact ⟨_, by rw [List.getLast?_eq_some_getLast (Text.splitOn_ne_nil _ _)]; rfl⟩
  obtain ⟨init, hstrides, hlong⟩ := exists_strides_extended hlast hextension
  obtain ⟨rest, hdot⟩ := exists_dot_of_moduleSpecifier? h
  have hrelative := not_isAbsolute_of_dot hdot
  have hrelativeLong : (⟨specifier ++ "." ++ extension⟩ : Path).isAbsolute = false :=
    not_isAbsolute_of_dot (by rw [String.append_assoc, String.toList_append, hdot, List.cons_append])
  have hextended : (directory.join ⟨specifier ++ "." ++ extension⟩).place =
      init.foldl follow directory.place ++ [last ++ "." ++ extension] := by
    rw [place_join hrelativeLong, hlong, List.foldl_append]
    rfl
  -- Without the extension the specifier leads to the unit without its own.
  have hleads : (init ++ (componentOf? last.toList).toList).foldl follow directory.place =
      before ++ [stem] := by
    obtain ⟨found, hfound, hleads⟩ := exists_moduleSpecifier? hd ht
    obtain rfl : specifier = found := Option.some.inj (h.symm.trans hfound)
    have hsame := hleads directory rfl
    rwa [normalSteps_eq_iff (isAbsolute_join hd _) (isAbsolute_withoutSourceExtension ht),
      place_join hrelative, hstrides, hshort] at hsame
  rw [normalSteps_eq_iff (isAbsolute_join hd _) ht, hextended, hplace, hlast, Option.some.injEq]
  constructor
  · intro heq
    have hend := congrArg String.toList (List.cons.inj (List.append_inj' heq rfl).2).1
    rw [String.append_assoc, String.append_assoc] at hend
    simp only [String.toList_append] at hend
    exact String.toList_inj.1 (List.append_cancel_right hend)
  · rintro rfl
    rw [hname, Option.toList_some, List.foldl_append] at hleads
    rw [(List.append_inj' hleads rfl).1]

end Path

end InterfaceGuards
