/-
  Relative paths lead to their targets.

  * `Path.Leads`: a text that leads from a directory to a target.
  * `Path.wayBetween`: the steps from one normal form to another; `relativeTo?_eq`: a relative path
    takes them.
  * `relativeTo?_of_isAbsolute`: between absolute paths they are the steps between their places, which
    lead from one to the other.
  * `leads_slashed`, `leads_dotted`: it does so as it is written, with `./` in front or without.
  * `eq_append_of_splitName`: what a file name with an extension is made of.
  * `isAbsolute_withoutSourceExtension`: an absolute path stays so without its extension.
  * `exists_moduleSpecifier?`: an absolute unit has a specifier that leads to it.
-/
import InterfaceGuards.Path.SourceUnit
import InterfaceGuards.Proofs.Path.Shape
import Mathlib.Data.List.TakeWhile

namespace InterfaceGuards

namespace Path

open Component (follow)
open Text (splitOn)

variable {p source target directory : Path} {here there : Location} {steps cs : List Component}
  {name text : String}

/-- A text that leads from a directory to a target, however the directory is spelled: put behind it,
    it has the normal form of the target. -/
def Leads (text : String) (directory target : Path) : Prop :=
  ∀ here : Path, here.normalSteps = directory.normalSteps →
    (here.join ⟨text⟩).normalSteps = target.normalSteps

/-! ## From one place to another -/

theorem isStep_parent : Component.parent.IsStep := ⟨rfl, by decide⟩

/-- Steps upwards lead back to the places above. -/
theorem foldl_follow_parents (here : Location) (n : Nat) :
    (List.replicate n Component.parent).foldl follow here = here.take (here.length - n) := by
  induction n generalizing here with
  | zero => simp
  | succ n ih =>
    rw [List.replicate_succ, List.foldl_cons, ih, follow, List.dropLast_eq_take, List.take_take,
      List.length_take]
    congr 1
    omega

/-- The steps from one place to another, which lead up to what the two share first. -/
def stepsBetween (here there : Location) : List Component :=
  let shared := commonLength (here.map .name) (there.map .name)
  List.replicate (here.length - shared) .parent ++ (there.drop shared).map .name

/-- **The steps between two places lead from one to the other.** -/
theorem foldl_stepsBetween (here there : Location) :
    (stepsBetween here there).foldl follow here = there := by
  have htake := take_commonLength (here.map .name) (there.map .name)
  unfold stepsBetween
  generalize commonLength (here.map .name) (there.map .name) = n at htake
  rw [← List.map_take, ← List.map_take] at htake
  have hshared : here.take n = there.take n :=
    List.map_injective_iff.2 (fun a b h => Component.name.inj h) htake
  have hback : here.take (here.length - (here.length - n)) = here.take n := by
    rcases Nat.le_total n here.length with hn | hn
    · rw [Nat.sub_sub_self hn]
    · rw [Nat.sub_eq_zero_of_le hn, Nat.sub_zero, List.take_length, List.take_of_length_le hn]
  rw [List.foldl_append, foldl_follow_parents, hback, hshared, Component.foldl_follow_names,
    List.take_append_drop]

theorem isStep_of_mem_stepsBetween (here : Location)
    (h : ∀ c ∈ there.map Component.name, c.IsStep) :
    ∀ c ∈ stepsBetween here there, c.IsStep := by
  intro c hc
  rcases List.mem_append.1 hc with hc | hc
  · rw [List.eq_of_mem_replicate hc]
    exact isStep_parent
  · obtain ⟨n, hn, rfl⟩ := List.mem_map.1 hc
    exact h _ (List.mem_map_of_mem (List.mem_of_mem_drop hn))

/-- The steps from one normal form to another, which lead up to what the two share first. -/
def wayBetween (start goal : List Component) : List Component :=
  let shared := commonLength start goal
  List.replicate (start.length - shared) .parent ++ goal.drop shared

theorem relativeTo?_eq (h : source.isAbsolute = target.isAbsolute) :
    source.relativeTo? target =
      some (ofComponents (wayBetween source.normalSteps target.normalSteps)) := by
  rw [relativeTo?, if_pos h]
  rfl

theorem wayBetween_of_isAbsolute (hs : source.isAbsolute) (ht : target.isAbsolute) :
    wayBetween source.normalSteps target.normalSteps =
      stepsBetween source.place target.place := by
  have hshared : commonLength source.normalSteps target.normalSteps =
      commonLength (source.place.map .name) (target.place.map .name) + 1 := by
    rw [normalSteps_eq hs, normalSteps_eq ht, commonLength, if_pos rfl]
  simp only [wayBetween, hshared]
  rw [normalSteps_eq hs, normalSteps_eq ht, List.drop_succ_cons, List.length_cons,
    Nat.add_sub_add_right, List.length_map, ← List.map_drop, stepsBetween]

/-- **Between absolute paths there is a relative one**, with the steps between their places. -/
theorem relativeTo?_of_isAbsolute (hs : source.isAbsolute) (ht : target.isAbsolute) :
    source.relativeTo? target = some (ofComponents (stepsBetween source.place target.place)) := by
  rw [relativeTo?_eq (hs.trans ht.symm), wayBetween_of_isAbsolute hs ht]

/-! ## As it is written -/

/-- What leads from the place of a directory to that of a target leads there. -/
theorem leads_of_strides (hd : directory.isAbsolute) (ht : target.isAbsolute)
    (htext : (⟨text⟩ : Path).isAbsolute = false)
    (h : (⟨text⟩ : Path).strides.foldl follow directory.place = target.place) :
    Leads text directory target := by
  intro here hhere
  rw [normalSteps_join htext, hhere, ← normalSteps_join htext,
    normalSteps_eq (by rwa [isAbsolute_join_eq htext]), normalSteps_eq ht, place_join htext, h]

/-- A path of steps is written as it is spelled. -/
theorem slashed_steps (h : ∀ c ∈ cs, c.IsStep) :
    (⟨(ofComponents cs).slashed⟩ : Path) = ofComponents cs := by
  rw [slashed, components_ofComponents h, ofComponents_steps h]
  simp [ofSegments, Lead.chars, Text.joinWith, segmentsOf, Function.comp_def]

/-- A `.` in front is no stride. -/
theorem strides_dotted (text : String) :
    (⟨"./" ++ text⟩ : Path).strides = (⟨text⟩ : Path).strides := by
  have hsplit : splitOn '/' ("./" ++ text).toList = ['.'] :: splitOn '/' text.toList := by
    simp [splitOn]
  rw [strides, hsplit]
  rfl

theorem not_isAbsolute_of_dot {rest : List Char} (h : text.toList = '.' :: rest) :
    (⟨text⟩ : Path).isAbsolute = false := by
  simp [isAbsolute, h]

theorem not_isAbsolute_dotted (text : String) : (⟨"./" ++ text⟩ : Path).isAbsolute = false :=
  not_isAbsolute_of_dot (String.toList_append ..)

section
variable (hd : directory.isAbsolute) (ht : target.isAbsolute)
include hd ht

/-- **The relative path leads to its target as it is written.** -/
theorem leads_slashed :
    Leads (ofComponents (stepsBetween directory.place target.place)).slashed directory target := by
  have hsteps := isStep_of_mem_stepsBetween directory.place (isStep_of_mem_place ht)
  refine leads_of_strides hd ht ?_ ?_
  · rw [slashed_steps hsteps, not_isAbsolute_steps hsteps]
  · rw [slashed_steps hsteps, strides_steps hsteps, foldl_stepsBetween]

theorem leads_dotted :
    Leads ("./" ++ (ofComponents (stepsBetween directory.place target.place)).slashed) directory
      target := by
  have hsteps := isStep_of_mem_stepsBetween directory.place (isStep_of_mem_place ht)
  refine leads_of_strides hd ht (not_isAbsolute_dotted _) ?_
  rw [strides_dotted, slashed_steps hsteps, strides_steps hsteps, foldl_stepsBetween]

end

/-! ## Source extensions -/

/-- The file name of an absolute path is shorter than the path. -/
theorem length_fileName?_lt (h : p.isAbsolute) (hname : p.fileName? = some name) :
    name.length < p.text.length := by
  obtain ⟨body, hbody, hlead⟩ := exists_splitLead h
  have hmem := mem_of_fileName? hname
  rw [components_eq, hlead] at hmem
  obtain ⟨segment, hs, hc⟩ :
      ∃ segment ∈ splitOn '/' body, componentOf? segment = some (.name name) := by
    simpa [Lead.components] using hmem
  have htext := (Component.isStep_of_componentOf? hc (Text.not_mem_of_mem_splitOn hs)).2
  have hlength := Text.length_le_of_mem_splitOn hs
  rw [← htext] at hlength
  rw [← String.length_toList, ← String.length_toList, hbody]
  exact Nat.lt_succ_of_le hlength

/-- What a name with an extension is made of. -/
theorem eq_append_of_splitName {chars stem extension : List Char}
    (h : splitName chars = (stem, some extension)) :
    chars = stem ++ '.' :: extension ∧ stem ≠ [] ∧ '.' ∉ extension := by
  unfold splitName at h
  split_ifs at h
  · cases h
  · dsimp only at h
    have hboth := List.takeWhile_append_dropWhile (p := (· ≠ '.')) (l := chars.reverse)
    have hplain : ∀ d ∈ chars.reverse.takeWhile (· ≠ '.'), d ≠ '.' := fun d hd => by
      simpa using List.mem_takeWhile_imp hd
    have hdot := List.head?_dropWhile_not (· ≠ '.') chars.reverse
    split at h
    · cases h
    · rename_i d rest hrest
      split_ifs at h with hnil
      · cases h
      · cases h
        rw [hrest] at hboth hdot
        obtain rfl : d = '.' := by simpa using hdot
        refine ⟨?_, by simpa using hnil, fun hmem => hplain '.' (List.mem_reverse.1 hmem) rfl⟩
        have hchars := congrArg List.reverse hboth
        rw [List.reverse_append, List.reverse_cons, List.append_assoc, List.reverse_reverse]
          at hchars
        exact hchars.symm

/-- An extension is no longer than the name that it ends. -/
theorem length_splitName_le {chars extension : List Char}
    (h : (splitName chars).2 = some extension) : extension.length ≤ chars.length := by
  obtain ⟨hchars, -⟩ := eq_append_of_splitName (Prod.ext rfl h)
  have hlength := congrArg List.length hchars
  rw [List.length_append, List.length_cons] at hlength
  omega

theorem isAbsolute_cutAfterStem (h : p.isAbsolute) : p.cutAfterStem.isAbsolute := by
  obtain ⟨body, -, hlead⟩ := exists_splitLead h
  unfold cutAfterStem
  cases p.stem? with
  | none => exact h
  | some stem =>
    simp only [hlead]
    exact isAbsolute_iff.2 ⟨_, text_ofSegments _ _⟩

/-- What is dropped of an absolute path with its extension leaves the slash in front. -/
theorem isAbsolute_withoutExtension (h : p.isAbsolute) : p.withoutExtension.isAbsolute := by
  unfold withoutExtension
  cases hext : p.extension? with
  | none => exact isAbsolute_cutAfterStem h
  | some extension =>
    apply isAbsolute_cutAfterStem
    obtain ⟨name, hname, hext⟩ := Option.bind_eq_some_iff.1 hext
    obtain ⟨chars, hchars, rfl⟩ := Option.map_eq_some_iff.1 hext
    have hlength := length_splitName_le hchars
    rw [String.length_toList] at hlength
    have hshort := Nat.lt_of_le_of_lt hlength (length_fileName?_lt h hname)
    obtain ⟨n, hn⟩ := Nat.exists_eq_add_one.2 (Nat.sub_pos_of_lt hshort)
    obtain ⟨body, hbody⟩ := isAbsolute_iff.1 h
    exact isAbsolute_iff.2 ⟨body.take n, by simp [hbody, hn]⟩

/-- **An absolute path stays absolute without its source extension.** -/
theorem isAbsolute_withoutSourceExtension (h : p.isAbsolute) :
    p.withoutSourceExtension.isAbsolute := by
  unfold withoutSourceExtension
  split
  · split_ifs
    · exact isAbsolute_withoutExtension h
    · exact h
  · exact h

/-- **An absolute unit has a specifier** in every absolute directory, and it leads from there to the
    unit without its source extension. -/
theorem exists_moduleSpecifier? (hd : directory.isAbsolute) (ht : target.isAbsolute) :
    ∃ specifier, directory.moduleSpecifier? target = some specifier ∧
      Leads specifier directory target.withoutSourceExtension := by
  have ht := isAbsolute_withoutSourceExtension ht
  rw [moduleSpecifier?, relativeTo?_of_isAbsolute hd ht, Option.map_some]
  simp only [Option.some.injEq, exists_eq_left']
  split_ifs
  · exact leads_slashed hd ht
  · exact leads_dotted hd ht

end Path

end InterfaceGuards
