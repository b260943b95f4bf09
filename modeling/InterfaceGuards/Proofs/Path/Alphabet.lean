/-
  The characters that paths are spelled with.

  * `Path.SpelledIn`: every character of a path is a dot, a slash or of a class.
  * `spelledIn_ofComponents`, `spelledIn_withoutSourceExtension`: so it is for what is made of such
    paths.
  * `mem_of_moduleSpecifier?`: the specifier that imports a unit is spelled with the characters of
    the path of the unit, dots and slashes.
-/
import InterfaceGuards.Path.SourceUnit
import InterfaceGuards.Proofs.Path.Join

namespace InterfaceGuards

namespace Text

theorem mem_of_mem_splitOn {c d : Char} {cs part : List Char} (h : part ∈ splitOn c cs)
    (hd : d ∈ part) : d ∈ cs := by
  rw [← intercalate_splitOn c cs]
  revert h
  generalize splitOn c cs = parts
  intro h
  induction parts with
  | nil => cases h
  | cons first parts ih =>
    rcases eq_or_ne parts [] with rfl | hne
    · rw [List.mem_singleton.1 h] at hd
      exact hd
    · rw [intercalate_cons hne, List.mem_append, List.mem_append]
      rcases List.mem_cons.1 h with rfl | h
      · exact .inl (.inl hd)
      · exact .inr (ih h)

/-- What is glued together comes from a part or from the separator. -/
theorem mem_intercalate_cases {separator : List Char} {d : Char} {parts : List (List Char)}
    (h : d ∈ intercalate separator parts) : d ∈ separator ∨ ∃ part ∈ parts, d ∈ part := by
  induction parts with
  | nil => cases h
  | cons first parts ih =>
    rcases eq_or_ne parts [] with rfl | hne
    · exact .inr ⟨first, List.mem_cons_self, h⟩
    · rw [intercalate_cons hne, List.mem_append, List.mem_append] at h
      rcases h with (h | h) | h
      · exact .inr ⟨first, List.mem_cons_self, h⟩
      · exact .inl h
      · rcases ih h with h | ⟨part, hpart, h⟩
        · exact .inl h
        · exact .inr ⟨part, List.mem_cons_of_mem _ hpart, h⟩

end Text

namespace Path

open Text (splitOn intercalate)

/-- Every character is a dot, a slash or of a class. -/
def Spelling (P : Char → Prop) (cs : List Char) : Prop := ∀ d ∈ cs, d = '.' ∨ d = '/' ∨ P d

/-- The path is spelled with dots, slashes and characters of a class. -/
def SpelledIn (P : Char → Prop) (p : Path) : Prop := Spelling P p.text.toList

/-- So is a step. -/
def Component.SpelledIn (P : Char → Prop) (c : Component) : Prop := Spelling P c.text.toList

variable {P : Char → Prop} {p q directory target : Path} {c : Component} {cs : List Component}
  {chars as bs : List Char}

/-! ## Steps -/

theorem Spelling.subset (h : Spelling P as) (hsub : bs ⊆ as) : Spelling P bs :=
  fun d hd => h d (hsub hd)

theorem Spelling.append (ha : Spelling P as) (hb : Spelling P bs) : Spelling P (as ++ bs) :=
  fun d hd => (List.mem_append.1 hd).elim (ha d) (hb d)

theorem spelling_slash : Spelling P ['/'] := fun _ hd => .inr (.inl (List.mem_singleton.1 hd))

theorem spelling_dot : Spelling P ['.'] := fun _ hd => .inl (List.mem_singleton.1 hd)

theorem Spelling.intercalate {parts : List (List Char)} (h : ∀ part ∈ parts, Spelling P part) :
    Spelling P (intercalate ['/'] parts) := by
  intro d hd
  rcases Text.mem_intercalate_cases hd with hd | ⟨part, hpart, hd⟩
  · exact spelling_slash d hd
  · exact h part hpart d hd

theorem spelledIn_parent : Component.parent.SpelledIn P := spelling_dot.append spelling_dot

theorem splitLead_subset (chars : List Char) : (splitLead chars).2 ⊆ chars := by
  unfold splitLead
  split <;> simp

/-- A segment that is a step is spelled as the step is. -/
theorem toList_of_componentOf? {segment : List Char} (h : componentOf? segment = some c) :
    c.text.toList = segment := by
  unfold componentOf? at h
  split_ifs at h with hnone hparent
  · cases h
    rw [hparent]
    rfl
  · cases h
    exact String.toList_ofList

/-- The segments of a path are spelled as the path is. -/
theorem spelling_of_mem_splitOn (hp : p.SpelledIn P)
    (h : chars ∈ splitOn '/' (splitLead p.text.toList).2) : Spelling P chars :=
  fun d hd => hp d (splitLead_subset _ (Text.mem_of_mem_splitOn h hd))

/-- The steps of a path are spelled as the path is. -/
theorem spelledIn_of_mem_components (hp : p.SpelledIn P) (hc : c ∈ p.components) :
    c.SpelledIn P := by
  rw [components_eq, List.mem_append] at hc
  rcases hc with hc | hc
  · cases hl : (splitLead p.text.toList).1 with
    | none => simp [hl, Lead.components] at hc
    | root =>
      obtain rfl : c = .root := by simpa [hl, Lead.components] using hc
      exact spelling_slash
    | current =>
      obtain rfl : c = .current := by simpa [hl, Lead.components] using hc
      exact spelling_dot
  · obtain ⟨segment, hsegment, hc⟩ := List.mem_filterMap.1 hc
    rw [Component.SpelledIn, toList_of_componentOf? hc]
    exact spelling_of_mem_splitOn hp hsegment

/-- Resolving only drops steps. -/
theorem resolve_subset (taken : List Component) (step : Component) :
    Component.resolve taken step ⊆ step :: taken := by
  unfold Component.resolve
  split
  · exact List.subset_cons_self ..
  · split
    · exact fun _ h => List.mem_cons_of_mem _ (List.mem_cons_of_mem _ h)
    · exact List.subset_cons_self ..
    · exact List.Subset.refl _
  · exact List.Subset.refl _

theorem normalSteps_subset (p : Path) : p.normalSteps ⊆ p.components := by
  suffices hfold : ∀ cs taken : List Component,
      cs.foldl Component.resolve taken ⊆ cs ++ taken by
    intro c hc
    simpa using hfold p.components [] (List.mem_reverse.1 hc)
  intro cs
  induction cs with
  | nil => exact fun _ => List.Subset.refl _
  | cons step cs ih =>
    intro taken c hc
    rcases List.mem_append.1 (ih _ hc) with hc | hc
    · exact List.mem_cons_of_mem _ (List.mem_append_left _ hc)
    · rcases List.mem_cons.1 (resolve_subset _ _ hc) with rfl | hc
      · exact List.mem_cons_self
      · exact List.mem_cons_of_mem _ (List.mem_append_right _ hc)

/-! ## Paths -/

theorem spelledIn_join (hp : p.SpelledIn P) (hq : q.SpelledIn P) : (p.join q).SpelledIn P := by
  unfold join SpelledIn
  split_ifs
  · exact hq
  · rw [String.toList_append]
    exact hp.append hq
  · rw [String.toList_append, String.toList_append]
    exact (hp.append spelling_slash).append hq

/-- A path is spelled as the steps are that it takes. -/
theorem spelledIn_ofComponents (hcs : ∀ c ∈ cs, c.SpelledIn P) : (ofComponents cs).SpelledIn P := by
  suffices hfold : ∀ (cs : List Component) (p : Path), (∀ c ∈ cs, c.SpelledIn P) →
      p.SpelledIn P → (cs.foldl (fun p c => p.join ⟨c.text⟩) p).SpelledIn P from
    hfold cs empty hcs fun d hd => by simp [empty] at hd
  intro cs
  induction cs with
  | nil => exact fun _ _ hp => hp
  | cons c cs ih =>
    intro p hcs hp
    obtain ⟨hc, hcs⟩ := List.forall_mem_cons.1 hcs
    exact ih _ hcs (spelledIn_join hp hc)

/-- A path is spelled as its lead and its segments are. -/
theorem spelledIn_ofSegments (lead : Lead) {segments : List (List Char)}
    (h : ∀ s ∈ segments, Spelling P s) : (ofSegments lead segments).SpelledIn P := by
  have hlead : Spelling P lead.chars := by
    cases lead with
    | none => exact fun _ hd => by cases hd
    | root => exact spelling_slash
    | current => exact spelling_dot
  rw [SpelledIn, text_ofSegments]
  exact hlead.append (.intercalate h)

theorem splitName_subset (chars : List Char) : (splitName chars).1 ⊆ chars := by
  unfold splitName
  split_ifs
  · exact List.Subset.refl _
  · dsimp only
    split
    · exact List.Subset.refl _
    · rename_i d stem hstem
      split_ifs
      · exact List.Subset.refl _
      · intro c hc
        have hrest : c ∈ d :: stem := List.mem_cons_of_mem _ (List.mem_reverse.1 hc)
        rw [← hstem] at hrest
        exact List.mem_reverse.1 ((List.dropWhile_sublist _).subset hrest)

theorem spelledIn_cutAfterStem (hp : p.SpelledIn P) : p.cutAfterStem.SpelledIn P := by
  unfold cutAfterStem
  split
  · exact hp
  · rename_i stem hstem
    obtain ⟨name, hname, rfl⟩ := Option.map_eq_some_iff.1 hstem
    refine spelledIn_ofSegments _ fun s hs => ?_
    rcases List.mem_append.1 hs with hs | hs
    · exact spelling_of_mem_splitOn hp (mem_of_mem_trimEnd (List.dropLast_subset _ hs))
    · rw [List.mem_singleton.1 hs, String.toList_ofList]
      exact (spelledIn_of_mem_components hp (mem_of_fileName? hname)).subset (splitName_subset _)

theorem spelledIn_withoutExtension (hp : p.SpelledIn P) : p.withoutExtension.SpelledIn P := by
  unfold withoutExtension
  split
  · exact spelledIn_cutAfterStem hp
  · refine spelledIn_cutAfterStem (hp.subset ?_)
    rw [String.toList_ofList]
    exact List.take_subset _ _

theorem spelledIn_withoutSourceExtension (hp : p.SpelledIn P) :
    p.withoutSourceExtension.SpelledIn P := by
  unfold withoutSourceExtension
  split
  · split_ifs
    · exact spelledIn_withoutExtension hp
    · exact hp
  · exact hp

/-- The path from a directory to a target is spelled as the target is. -/
theorem spelledIn_relativeTo? (ht : target.SpelledIn P)
    (h : directory.relativeTo? target = some p) : p.SpelledIn P := by
  unfold relativeTo? at h
  split_ifs at h
  cases h
  refine spelledIn_ofComponents fun c hc => ?_
  rcases List.mem_append.1 hc with hc | hc
  · rw [List.eq_of_mem_replicate hc]
    exact spelledIn_parent
  · exact spelledIn_of_mem_components ht (normalSteps_subset _ (List.mem_of_mem_drop hc))

theorem spelling_slashed (hp : p.SpelledIn P) : Spelling P p.slashed.toList := by
  rw [slashed, Text.joinWith, String.toList_ofList]
  refine .intercalate fun part hpart => ?_
  obtain ⟨text, htext, rfl⟩ := List.mem_map.1 hpart
  obtain ⟨c, hc, rfl⟩ := List.mem_map.1 htext
  exact spelledIn_of_mem_components hp hc

/-- **The specifier that imports a unit** is spelled with the characters of the path of the unit, dots
    and slashes, wherever it is imported. -/
theorem mem_of_moduleSpecifier? {specifier : String}
    (h : directory.moduleSpecifier? target = some specifier) :
    ∀ d ∈ specifier.toList, d = '.' ∨ d = '/' ∨ d ∈ target.text.toList := by
  obtain ⟨relative, hrelative, rfl⟩ := Option.map_eq_some_iff.1 h
  have htarget : target.SpelledIn (· ∈ target.text.toList) := fun _ hd => .inr (.inr hd)
  have hjoined := spelling_slashed
    (spelledIn_relativeTo? (spelledIn_withoutSourceExtension htarget) hrelative)
  dsimp only
  split_ifs
  · exact hjoined
  · rw [String.toList_append]
    exact (spelling_dot.append spelling_slash).append hjoined

end Path

end InterfaceGuards
