/-
  Paths spelled step by step.

  * `Component.IsStep`: a step that a path has behind its lead: a name, or one upwards.
  * `components_of_isAbsolute`: an absolute path is the root with steps behind it.
  * `ofComponents_root`, `ofComponents_steps`: steps are spelled with one slash between any two.
  * `components_ofComponents`: a path spelled from steps has these steps.
  * `join_ofComponents`, `parent?_ofComponents`: joining appends steps, the parent has one less.
-/
import InterfaceGuards.Path.Normal
import Mathlib.Data.List.Basic

namespace InterfaceGuards

namespace Text

theorem splitOn_of_not_mem {c : Char} {cs : List Char} (h : c ∉ cs) : splitOn c cs = [cs] := by
  induction cs with
  | nil => rfl
  | cons d rest ih =>
    have hd : d ≠ c := fun hdc => h (by simp [hdc])
    simp [splitOn, hd, ih (fun hm => h (by simp [hm]))]

/-- A separator in front has nothing before it. -/
theorem splitOn_cons_self (c : Char) (rest : List Char) :
    splitOn c (c :: rest) = [] :: splitOn c rest := by
  simp [splitOn]

theorem splitOn_append {c : Char} {part rest : List Char} (h : c ∉ part) :
    splitOn c (part ++ c :: rest) = part :: splitOn c rest := by
  induction part with
  | nil => simp [splitOn]
  | cons d part ih =>
    have hd : d ≠ c := fun hdc => h (by simp [hdc])
    simp [splitOn, hd, ih (fun hm => h (by simp [hm]))]

theorem intercalate_cons {separator part : List Char} {parts : List (List Char)}
    (h : parts ≠ []) :
    intercalate separator (part :: parts) = part ++ separator ++ intercalate separator parts := by
  cases parts with
  | nil => exact absurd rfl h
  | cons => rfl

/-- Parts that do not hold the separator are found again. -/
theorem splitOn_intercalate {c : Char} {parts : List (List Char)} (hne : parts ≠ [])
    (h : ∀ part ∈ parts, c ∉ part) : splitOn c (intercalate [c] parts) = parts := by
  induction parts with
  | nil => exact absurd rfl hne
  | cons part parts ih =>
    have hpart := h part (by simp)
    rcases eq_or_ne parts [] with rfl | hparts
    · exact splitOn_of_not_mem hpart
    · rw [intercalate_cons hparts, List.append_assoc, List.singleton_append, splitOn_append hpart,
        ih hparts fun part hm => h part (by simp [hm])]

theorem not_mem_of_mem_splitOn {c : Char} {cs part : List Char} (h : part ∈ splitOn c cs) :
    c ∉ part := by
  induction cs generalizing part with
  | nil =>
    obtain rfl : part = [] := by simpa [splitOn] using h
    simp
  | cons d rest ih =>
    rw [splitOn] at h
    split_ifs at h with hd
    · rcases List.mem_cons.1 h with rfl | h
      · simp
      · exact ih h
    · cases hs : splitOn c rest with
      | nil => exact absurd hs (splitOn_ne_nil c rest)
      | cons first parts =>
        rw [hs] at h ih
        rcases List.mem_cons.1 h with rfl | h
        · have hfirst : c ∉ first := ih (by simp)
          simp [hfirst, Ne.symm hd]
        · exact ih (by simp [h])

/-- No part of a text is longer than the text. -/
theorem length_le_of_mem_splitOn {c : Char} {cs part : List Char} (h : part ∈ splitOn c cs) :
    part.length ≤ cs.length := by
  induction cs generalizing part with
  | nil =>
    obtain rfl := List.mem_singleton.1 h
    exact Nat.le_refl 0
  | cons d rest ih =>
    rw [splitOn] at h
    split_ifs at h with hd
    · rcases List.mem_cons.1 h with rfl | h
      · exact Nat.zero_le _
      · exact Nat.le_succ_of_le (ih h)
    · cases hs : splitOn c rest with
      | nil => exact absurd hs (splitOn_ne_nil c rest)
      | cons first parts =>
        rw [hs] at h ih
        rcases List.mem_cons.1 h with rfl | h
        · exact Nat.succ_le_succ (ih (List.mem_cons_self ..))
        · exact Nat.le_succ_of_le (ih (List.mem_cons_of_mem _ h))

theorem intercalate_append {separator : List Char} {as bs : List (List Char)} (ha : as ≠ [])
    (hb : bs ≠ []) :
    intercalate separator (as ++ bs) =
      intercalate separator as ++ separator ++ intercalate separator bs := by
  induction as with
  | nil => exact absurd rfl ha
  | cons a as ih =>
    rcases eq_or_ne as [] with rfl | has
    · exact intercalate_cons hb
    · rw [List.cons_append, intercalate_cons (by simp [has]), intercalate_cons has, ih has]
      simp

theorem getLast?_intercalate {separator : List Char} {parts : List (List Char)} {part : List Char}
    (h : part ≠ []) : (intercalate separator (parts ++ [part])).getLast? = part.getLast? := by
  rcases eq_or_ne parts [] with rfl | hparts
  · rfl
  · rw [intercalate_append hparts (by simp)]
    exact List.getLast?_append_of_ne_nil _ h

end Text

namespace Path

open Text (splitOn intercalate)

/-! ## Steps -/

namespace Component

/-- A step that a path can have behind its lead: upwards, or to a name that is no other step and has
    no slash in it. -/
def IsStep (c : Component) : Prop :=
  componentOf? c.text.toList = some c ∧ '/' ∉ c.text.toList

variable {c : Component}

theorem isStep_of_componentOf? {segment : List Char} (h : componentOf? segment = some c)
    (hs : '/' ∉ segment) : c.IsStep ∧ c.text.toList = segment := by
  have hc := h
  unfold componentOf? at h
  split_ifs at h with hnone hparent
  · cases h
    subst hparent
    exact ⟨⟨rfl, by decide⟩, rfl⟩
  · cases h
    have ht : (Component.name (String.ofList segment)).text.toList = segment := by simp [text]
    exact ⟨⟨by rw [ht, hc], by rwa [ht]⟩, ht⟩

theorem IsStep.ne_root (h : c.IsStep) : c ≠ .root := by
  rintro rfl
  exact absurd h.2 (by decide)

theorem IsStep.ne_current (h : c.IsStep) : c ≠ .current := by
  rintro rfl
  exact absurd h.1 (by decide)

theorem IsStep.text_ne_nil (h : c.IsStep) : c.text.toList ≠ [] := by
  intro hnil
  have := h.1
  rw [hnil] at this
  cases this

end Component

variable {p : Path} {cs ds : List Component}

/-! ## Absolute paths -/

theorem isAbsolute_iff : p.isAbsolute ↔ ∃ body, p.text.toList = '/' :: body := by
  unfold isAbsolute
  cases p.text.toList with
  | nil => simp
  | cons c body => simp

/-- The lead of an absolute path is the root. -/
theorem exists_splitLead (h : p.isAbsolute) :
    ∃ body, p.text.toList = '/' :: body ∧ splitLead p.text.toList = (.root, body) := by
  obtain ⟨body, hbody⟩ := isAbsolute_iff.1 h
  exact ⟨body, hbody, by rw [hbody, splitLead]⟩

/-- **An absolute path is the root with steps behind it.** -/
theorem components_of_isAbsolute (h : p.isAbsolute) :
    ∃ cs, p.components = .root :: cs ∧ ∀ c ∈ cs, c.IsStep := by
  obtain ⟨body, -, hlead⟩ := exists_splitLead h
  refine ⟨(splitOn '/' body).filterMap componentOf?, by simp [components, hlead,
    Lead.components], fun c hc => ?_⟩
  obtain ⟨segment, hs, hc⟩ := List.mem_filterMap.1 hc
  exact (Component.isStep_of_componentOf? hc (Text.not_mem_of_mem_splitOn hs)).1

theorem components_eq (p : Path) : p.components = (splitLead p.text.toList).1.components ++
    (splitOn '/' (splitLead p.text.toList).2).filterMap componentOf? := rfl

/-- Behind the lead, which is the root or `.` if it is a step, there are only steps. -/
theorem isStep_of_mem_components {c : Component} (hc : c ∈ p.components) (hroot : c ≠ .root)
    (hcurrent : c ≠ .current) : c.IsStep := by
  rw [components_eq] at hc
  rcases List.mem_append.1 hc with hc | hc
  · cases hl : (splitLead p.text.toList).1 with
    | none => simp [hl, Lead.components] at hc
    | root => simp [hl, Lead.components, hroot] at hc
    | current => simp [hl, Lead.components, hcurrent] at hc
  · obtain ⟨segment, hs, hc⟩ := List.mem_filterMap.1 hc
    exact (Component.isStep_of_componentOf? hc (Text.not_mem_of_mem_splitOn hs)).1

theorem mem_of_fileName? {name : String} (h : p.fileName? = some name) :
    .name name ∈ p.components := by
  unfold fileName? at h
  split at h
  · rename_i last hlast
    cases h
    exact List.mem_of_getLast? hlast
  · cases h

/-- A file name is a step. -/
theorem isStep_of_fileName? {name : String} (h : p.fileName? = some name) :
    (Component.name name).IsStep :=
  isStep_of_mem_components (mem_of_fileName? h) (by simp) (by simp)

/-- Joining to an absolute path gives an absolute path. -/
theorem isAbsolute_join (h : p.isAbsolute) (q : Path) : (p.join q).isAbsolute := by
  obtain ⟨body, hbody⟩ := isAbsolute_iff.1 h
  unfold join
  split_ifs with hq
  · exact hq
  · exact isAbsolute_iff.2 ⟨body ++ q.text.toList, by simp [hbody]⟩
  · exact isAbsolute_iff.2 ⟨body ++ ('/' :: q.text.toList), by simp [hbody]⟩

/-! ## Spelling -/

/-- The spellings of several steps. -/
def segmentsOf (cs : List Component) : List (List Char) := cs.map (·.text.toList)

/-- The lead stands before steps without a slash between. -/
theorem text_ofSegments (lead : Lead) (segments : List (List Char)) :
    (ofSegments lead segments).text.toList = lead.chars ++ intercalate ['/'] segments := by
  simp [ofSegments]

theorem getLast?_segments (hcs : ∀ c ∈ cs, c.IsStep) :
    (intercalate ['/'] (segmentsOf cs)).getLast? ≠ some '/' := by
  rcases List.eq_nil_or_concat cs with rfl | ⟨before, c, rfl⟩
  · simp [segmentsOf, intercalate]
  · have hc := hcs c (by simp)
    rw [segmentsOf, List.concat_eq_append, List.map_append, List.map_singleton,
      Text.getLast?_intercalate hc.text_ne_nil]
    intro hlast
    exact hc.2 (List.mem_of_getLast? hlast)

theorem not_isAbsolute_segments (hcs : ∀ c ∈ cs, c.IsStep) :
    (ofSegments .none (segmentsOf cs)).isAbsolute = false := by
  rw [Bool.eq_false_iff]
  intro h
  obtain ⟨body, hbody⟩ := isAbsolute_iff.1 h
  rw [text_ofSegments, Lead.chars, List.nil_append] at hbody
  cases cs with
  | nil => cases hbody
  | cons c cs =>
    have hc := hcs c (by simp)
    cases ht : c.text.toList with
    | nil => exact hc.text_ne_nil ht
    | cons d rest =>
      have hd : d = '/' := by
        cases cs with
        | nil => simp only [segmentsOf, List.map_cons, List.map_nil, intercalate, ht] at hbody
                 exact (List.cons.inj hbody).1
        | cons => simp only [segmentsOf, List.map_cons, intercalate, ht] at hbody
                  exact (List.cons.inj hbody).1
      exact hc.2 (by simp [ht, hd])

/-- A path that is nothing or the root, or that is spelled from steps behind these, is continued by
    steps with one slash between. -/
theorem join_ofSegments {lead : Lead} (hl : lead = .none ∨ lead = .root)
    (hcs : ∀ c ∈ cs, c.IsStep) (hds : ∀ d ∈ ds, d.IsStep) (hne : ds ≠ []) :
    (ofSegments lead (segmentsOf cs)).join (ofSegments .none (segmentsOf ds)) =
      ofSegments lead (segmentsOf (cs ++ ds)) := by
  have htext : ∀ {p q : Path}, p.text.toList = q.text.toList → p = q := by
    rintro ⟨p⟩ ⟨q⟩ h
    exact congrArg _ (String.toList_inj.1 h)
  have hdne : segmentsOf ds ≠ [] := by simpa [segmentsOf] using hne
  unfold join
  rw [if_neg (by simp [not_isAbsolute_segments hds])]
  rcases eq_or_ne cs [] with rfl | hcne
  · -- Nothing and the root need no slash.
    rw [if_pos]
    · apply htext
      simp [text_ofSegments, segmentsOf, intercalate, Lead.chars]
    · rcases hl with rfl | rfl <;> simp [ofSegments, segmentsOf, intercalate, Lead.chars]
  · have hsne : segmentsOf cs ≠ [] := by simpa [segmentsOf] using hcne
    have hchars : intercalate ['/'] (segmentsOf cs) ≠ [] := by
      intro hnil
      have hsplit := Text.splitOn_intercalate (c := '/') hsne (by
        intro part hpart
        obtain ⟨c, hc, rfl⟩ := List.mem_map.1 hpart
        exact (hcs c hc).2)
      rw [hnil] at hsplit
      obtain ⟨c, hc⟩ := List.exists_mem_of_ne_nil cs hcne
      have hmem : c.text.toList ∈ segmentsOf cs := List.mem_map_of_mem hc
      rw [← hsplit] at hmem
      exact (hcs c hc).text_ne_nil (List.mem_singleton.1 hmem)
    rw [if_neg]
    · apply htext
      simp only [String.toList_append, text_ofSegments, segmentsOf, List.map_append] at hsne hdne ⊢
      rw [Text.intercalate_append hsne hdne]
      simp [Lead.chars]
    · rintro (h | h)
      · have := congrArg String.toList h
        rw [text_ofSegments] at this
        exact hchars (List.append_eq_nil_iff.1 this).2
      · rw [text_ofSegments, List.getLast?_append_of_ne_nil _ hchars] at h
        exact getLast?_segments hcs h

theorem foldl_join {lead : Lead} (hl : lead = .none ∨ lead = .root) (hcs : ∀ c ∈ cs, c.IsStep)
    (hds : ∀ d ∈ ds, d.IsStep) :
    ds.foldl (fun p c => p.join ⟨c.text⟩) (ofSegments lead (segmentsOf cs)) =
      ofSegments lead (segmentsOf (cs ++ ds)) := by
  induction ds generalizing cs with
  | nil => simp
  | cons d ds ih =>
    have hd := hds d (by simp)
    have hstep : (⟨d.text⟩ : Path) = ofSegments .none (segmentsOf [d]) := by
      simp [ofSegments, segmentsOf, intercalate, Lead.chars]
    have hcsd : ∀ c ∈ cs ++ [d], c.IsStep := by
      intro c hc
      rcases List.mem_append.1 hc with hc | hc
      · exact hcs c hc
      · rwa [List.mem_singleton.1 hc]
    rw [List.foldl_cons, hstep, join_ofSegments hl hcs (by simpa using hd) (by simp),
      ih hcsd fun d hd => hds d (by simp [hd])]
    simp

/-- **Steps are spelled with one slash between any two.** -/
theorem ofComponents_steps (h : ∀ c ∈ cs, c.IsStep) :
    ofComponents cs = ofSegments .none (segmentsOf cs) := by
  have hnone : ∀ c ∈ ([] : List Component), c.IsStep := by simp
  exact foldl_join (.inl rfl) hnone h

/-- **Steps from the root are spelled with a slash before each.** -/
theorem ofComponents_root (h : ∀ c ∈ cs, c.IsStep) :
    ofComponents (.root :: cs) = ofSegments .root (segmentsOf cs) := by
  have hnone : ∀ c ∈ ([] : List Component), c.IsStep := by simp
  exact foldl_join (.inr rfl) hnone h

theorem isAbsolute_ofComponents (h : ∀ c ∈ cs, c.IsStep) :
    (ofComponents (.root :: cs)).isAbsolute := by
  rw [ofComponents_root h]
  exact isAbsolute_iff.2 ⟨intercalate ['/'] (segmentsOf cs), text_ofSegments _ _⟩

/-! ## Reading a spelling -/

/-- The segments of a body that is spelled from steps; the empty body is one empty segment. -/
theorem splitOn_segments (h : ∀ c ∈ cs, c.IsStep) (hne : cs ≠ []) :
    splitOn '/' (intercalate ['/'] (segmentsOf cs)) = segmentsOf cs := by
  apply Text.splitOn_intercalate
  · simpa [segmentsOf] using hne
  · intro part hpart
    obtain ⟨c, hc, rfl⟩ := List.mem_map.1 hpart
    exact (h c hc).2

theorem filterMap_segments (h : ∀ c ∈ cs, c.IsStep) :
    (segmentsOf cs).filterMap componentOf? = cs := by
  induction cs with
  | nil => rfl
  | cons c cs ih =>
    have hc := (h c (by simp)).1
    have hcs := ih fun c hc => h c (by simp [hc])
    rw [segmentsOf] at hcs ⊢
    rw [List.map_cons, List.filterMap_cons_some hc, hcs]

theorem steps_of_body (h : ∀ c ∈ cs, c.IsStep) :
    (splitOn '/' (intercalate ['/'] (segmentsOf cs))).filterMap componentOf? = cs := by
  rcases eq_or_ne cs [] with rfl | hne
  · rfl
  · rw [splitOn_segments h hne, filterMap_segments h]

theorem components_root (h : ∀ c ∈ cs, c.IsStep) :
    (ofComponents (.root :: cs)).components = .root :: cs := by
  have htext : (ofComponents (.root :: cs)).text.toList =
      '/' :: intercalate ['/'] (segmentsOf cs) := by
    rw [ofComponents_root h, text_ofSegments, Lead.chars, List.singleton_append]
  have hsplit : splitLead (ofComponents (.root :: cs)).text.toList =
      (.root, intercalate ['/'] (segmentsOf cs)) := by rw [htext, splitLead]
  rw [components_eq, hsplit, steps_of_body h]
  rfl

/-- A body of steps has no lead. -/
theorem splitLead_segments (h : ∀ c ∈ cs, c.IsStep) :
    splitLead (intercalate ['/'] (segmentsOf cs)) =
      (.none, intercalate ['/'] (segmentsOf cs)) := by
  cases cs with
  | nil => rfl
  | cons c cs =>
    have hc := h c (by simp)
    have hfirst : ∀ rest, splitOn '/' (intercalate ['/'] (segmentsOf (c :: cs))) =
        ['.'] :: rest → False := by
      intro rest hrest
      rw [splitOn_segments h (by simp), segmentsOf, List.map_cons] at hrest
      have hdot := hc.1
      rw [(List.cons.inj hrest).1] at hdot
      cases hdot
    have habs := not_isAbsolute_segments h
    rw [Bool.eq_false_iff, Ne, isAbsolute_iff, text_ofSegments] at habs
    unfold splitLead
    split
    · rename_i rest heq
      exact absurd ⟨rest, heq⟩ habs
    · rename_i heq
      exact (hfirst [] (by rw [heq]; rfl)).elim
    · rename_i rest heq
      exact (hfirst (splitOn '/' rest) (by rw [heq]; simp [splitOn])).elim
    · rfl

/-- **A path that is spelled from steps has these steps.** -/
theorem components_ofComponents (h : ∀ c ∈ cs, c.IsStep) :
    (ofComponents cs).components = cs := by
  have hsplit : splitLead (ofComponents cs).text.toList =
      (.none, intercalate ['/'] (segmentsOf cs)) := by
    rw [ofComponents_steps h, text_ofSegments, Lead.chars, List.nil_append, splitLead_segments h]
  rw [components_eq, hsplit, steps_of_body h]
  rfl

/-- **Joining appends steps.** -/
theorem join_ofComponents (hcs : ∀ c ∈ cs, c.IsStep) (hds : ∀ d ∈ ds, d.IsStep) (hne : ds ≠ []) :
    (ofComponents (.root :: cs)).join (ofComponents ds) = ofComponents (.root :: (cs ++ ds)) := by
  have hboth : ∀ c ∈ cs ++ ds, c.IsStep := fun c hc => (List.mem_append.1 hc).elim (hcs c) (hds c)
  rw [ofComponents_root hcs, ofComponents_steps hds, ofComponents_root hboth,
    join_ofSegments (.inr rfl) hcs hds hne]

theorem join_ofComponents_steps (hcs : ∀ c ∈ cs, c.IsStep) (hds : ∀ d ∈ ds, d.IsStep)
    (hne : ds ≠ []) : (ofComponents cs).join (ofComponents ds) = ofComponents (cs ++ ds) := by
  have hboth : ∀ c ∈ cs ++ ds, c.IsStep := fun c hc => (List.mem_append.1 hc).elim (hcs c) (hds c)
  rw [ofComponents_steps hcs, ofComponents_steps hds, ofComponents_steps hboth,
    join_ofSegments (.inl rfl) hcs hds hne]

theorem trimEnd_segments (h : ∀ c ∈ cs, c.IsStep) : trimEnd (segmentsOf cs) = segmentsOf cs := by
  rcases List.eq_nil_or_concat cs with rfl | ⟨before, c, rfl⟩
  · rfl
  · have hc := (h c (by simp)).1
    simp [trimEnd, segmentsOf, hc]

/-- **The parent has all steps but the last.** -/
theorem parent?_ofComponents {c : Component} (hcs : ∀ c ∈ cs, c.IsStep) (hc : c.IsStep) :
    (ofComponents (.root :: (cs ++ [c]))).parent? = some (ofComponents (.root :: cs)) := by
  have hall : ∀ d ∈ cs ++ [c], d.IsStep := by
    intro d hd
    rcases List.mem_append.1 hd with hd | hd
    · exact hcs d hd
    · rwa [List.mem_singleton.1 hd]
  have hsplit : splitLead (ofComponents (.root :: (cs ++ [c]))).text.toList =
      (.root, intercalate ['/'] (segmentsOf (cs ++ [c]))) := by
    rw [ofComponents_root hall, text_ofSegments]
    rfl
  have hsegments : segmentsOf (cs ++ [c]) = segmentsOf cs ++ [c.text.toList] := by
    simp [segmentsOf]
  unfold parent?
  rw [hsplit]
  simp only [splitOn_segments hall (by simp), trimEnd_segments hall]
  rw [hsegments]
  split
  · rename_i hnil
    simp at hnil
  · rename_i hnil _
    simp at hnil
  · rw [List.dropLast_concat, trimEnd_segments hcs, ofComponents_root hcs]

end Path

end InterfaceGuards
