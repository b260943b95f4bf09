/-
  Paths without the extension of their file name.

  * `splitName_append`: a name is cut at its last dot, unless that stands in front.
  * `Path.Trails`: what may stand behind a file name: slashes and dots that take no step.
  * `exists_spelling`, `strides_spelling`: the last stride of an absolute path, as it is spelled.
  * `strides_withoutExtension`: without its extension a path has the stem of its file name for its
    last stride, as if the stem had been written there.
  * `IsSource`: the path of a TypeScript source; `isEligible_iff`: for these output is made.
  * `place_withoutSourceExtension`: so a unit without its source extension lies beside the unit, if
    its stem is a name.
-/
import InterfaceGuards.Proofs.Path.Alphabet
import InterfaceGuards.Proofs.Path.Relative

namespace InterfaceGuards

namespace Path

open Text (splitOn intercalate)

variable {p : Path} {before : List Component} {name : String} {segment stem extension : List Char}

/-! ## Names -/

theorem append_ne_dots (hstem : stem ≠ []) (hdot : stem ≠ ['.']) :
    stem ++ '.' :: extension ≠ ['.', '.'] := by
  intro heq
  cases stem with
  | nil => exact hstem rfl
  | cons c rest =>
    obtain ⟨rfl, hrest⟩ := List.cons.inj heq
    cases rest with
    | nil => exact hdot rfl
    | cons d rest =>
      obtain ⟨-, hrest⟩ := List.cons.inj hrest
      exact List.append_ne_nil_of_right_ne_nil rest (List.cons_ne_nil _ _) hrest

/-- A stem and an extension make a name. -/
theorem componentOf?_append (hstem : stem ≠ []) (hdot : stem ≠ ['.']) :
    componentOf? (stem ++ '.' :: extension) =
      some (.name (String.ofList (stem ++ '.' :: extension))) := by
  have hidle : ¬(stem ++ '.' :: extension = [] ∨ stem ++ '.' :: extension = ['.']) := by
    rintro (heq | heq)
    · simp at heq
    · cases stem with
      | nil => exact hstem rfl
      | cons c rest => simp at heq
  rw [componentOf?, if_neg hidle, if_neg (append_ne_dots hstem hdot)]

/-- What stands for no other step is a name. -/
theorem componentOf?_name (hnil : name ≠ "") (hdot : name ≠ ".") (hdots : name ≠ "..") :
    componentOf? name.toList = some (.name name) := by
  have hchars : ∀ {other : String}, name ≠ other → name.toList ≠ other.toList :=
    fun hne heq => hne (String.toList_inj.1 heq)
  have hidle : ¬(name.toList = [] ∨ name.toList = ['.']) := not_or.2 ⟨hchars hnil, hchars hdot⟩
  have hparent : name.toList ≠ ['.', '.'] := hchars hdots
  rw [componentOf?, if_neg hidle, if_neg hparent, String.ofList_toList]

theorem splitName_append_of_ne (hstem : stem ≠ []) (hne : stem ++ '.' :: extension ≠ ['.', '.'])
    (hext : '.' ∉ extension) : splitName (stem ++ '.' :: extension) = (stem, some extension) := by
  have hreverse : (stem ++ '.' :: extension).reverse =
      extension.reverse ++ '.' :: stem.reverse := by simp
  have hplain : ∀ d ∈ extension.reverse, decide (d ≠ '.') = true := by
    intro d hd
    rw [decide_eq_true_iff]
    rintro rfl
    exact hext (List.mem_reverse.1 hd)
  have htake : (extension.reverse ++ '.' :: stem.reverse).takeWhile (· ≠ '.') =
      extension.reverse := by
    rw [List.takeWhile_append_of_pos hplain]
    simp
  have hdrop : (extension.reverse ++ '.' :: stem.reverse).dropWhile (· ≠ '.') =
      '.' :: stem.reverse := by
    rw [List.dropWhile_append_of_pos hplain]
    simp
  unfold splitName
  rw [if_neg hne, hreverse, htake, hdrop]
  simp [hstem]

/-- A name is cut at its last dot. -/
theorem splitName_append (hstem : stem ≠ []) (hdot : stem ≠ ['.']) (hext : '.' ∉ extension) :
    splitName (stem ++ '.' :: extension) = (stem, some extension) :=
  splitName_append_of_ne hstem (append_ne_dots hstem hdot) hext

/-! ## Behind a file name -/

/-- Slashes and dots behind a name that take no step further. -/
inductive Trails : List Char → Prop
  | nil : Trails []
  | slash {cs : List Char} : Trails cs → Trails ('/' :: cs)
  | dot {cs : List Char} : Trails cs → Trails ('/' :: '.' :: cs)

theorem Trails.take {cs : List Char} (h : Trails cs) (n : Nat) : Trails (cs.take n) := by
  induction h generalizing n with
  | nil =>
    rw [List.take_nil]
    exact .nil
  | slash _ ih =>
    cases n with
    | zero => exact .nil
    | succ n => exact .slash (ih n)
  | dot _ ih =>
    cases n with
    | zero => exact .nil
    | succ n =>
      cases n with
      | zero => exact .slash .nil
      | succ n => exact .dot (ih n)

theorem filterMap_cons_toList {α β : Type} (f : α → Option β) (x : α) (xs : List α) :
    (x :: xs).filterMap f = (f x).toList ++ xs.filterMap f := by
  cases h : f x <;> simp [h]

/-- What trails a segment is cut into segments that are no steps. -/
theorem Trails.filterMap_splitOn {cs : List Char} (h : Trails cs) (hs : '/' ∉ segment) :
    (splitOn '/' (segment ++ cs)).filterMap componentOf? = (componentOf? segment).toList := by
  induction h generalizing segment with
  | nil =>
    rw [List.append_nil, Text.splitOn_of_not_mem hs, filterMap_cons_toList, List.filterMap_nil,
      List.append_nil]
  | @slash cs _ ih =>
    have hrest : (splitOn '/' cs).filterMap componentOf? = [] := ih List.not_mem_nil
    rw [Text.splitOn_append hs, filterMap_cons_toList, hrest, List.append_nil]
  | @dot cs _ ih =>
    have hrest : (splitOn '/' ('.' :: cs)).filterMap componentOf? = [] :=
      ih (by decide : '/' ∉ ['.'])
    rw [Text.splitOn_append hs, filterMap_cons_toList, hrest, List.append_nil]

/-- Segments that are no steps trail the one before them. -/
theorem exists_trails {segments : List (List Char)} (h : ∀ s ∈ segments, componentOf? s = none)
    (segment : List Char) :
    ∃ trail, Trails trail ∧ intercalate ['/'] (segment :: segments) = segment ++ trail := by
  induction segments generalizing segment with
  | nil => exact ⟨[], .nil, (List.append_nil _).symm⟩
  | cons s segments ih =>
    obtain ⟨hs, hsegments⟩ := List.forall_mem_cons.1 h
    obtain ⟨trail, htrail, heq⟩ := ih hsegments s
    refine ⟨'/' :: (s ++ trail), ?_, ?_⟩
    · have hidle : s = [] ∨ s = ['.'] := by
        by_contra hne
        rw [componentOf?, if_neg hne] at hs
        split_ifs at hs
      rcases hidle with rfl | rfl
      · exact .slash htrail
      · exact .dot htrail
    · rw [Text.intercalate_cons (List.cons_ne_nil s segments), heq, List.append_assoc,
        List.singleton_append]

/-! ## The last stride -/

/-- **How an absolute path ends** with its file name. -/
theorem exists_spelling (h : p.isAbsolute) (hs : p.strides = before ++ [.name name]) :
    ∃ init trail, p.text.toList = init ++ '/' :: (name.toList ++ trail) ∧ Trails trail ∧
      (splitOn '/' init).filterMap componentOf? = before := by
  obtain ⟨body, hbody⟩ := isAbsolute_iff.1 h
  obtain ⟨init, rest, hsplit, hinit, hrest⟩ := List.filterMap_eq_append_iff.1 hs
  obtain ⟨idle, last, more, rfl, hidle, hlast, hmore⟩ := List.filterMap_eq_cons_iff.1 hrest
  have hsegment : last = name.toList := by
    have hmem : last ∈ splitOn '/' p.text.toList := by simp [hsplit]
    exact (Component.isStep_of_componentOf? hlast (Text.not_mem_of_mem_splitOn hmem)).2.symm
  have hfirst : init ++ idle ≠ [] := by
    intro hnil
    rw [← List.append_assoc, hnil, hbody, Text.splitOn_cons_self, List.nil_append] at hsplit
    obtain ⟨rfl, -⟩ := List.cons.inj hsplit
    cases hlast
  obtain ⟨trail, htrail, heq⟩ := exists_trails (List.filterMap_eq_nil_iff.1 hmore) last
  have hbefore : ∀ part ∈ init ++ idle, '/' ∉ part := fun part hpart =>
    Text.not_mem_of_mem_splitOn (by rw [hsplit, ← List.append_assoc]
                                    exact List.mem_append_left _ hpart)
  refine ⟨intercalate ['/'] (init ++ idle), trail, ?_, htrail, ?_⟩
  · rw [← Text.intercalate_splitOn '/' p.text.toList, hsplit, ← List.append_assoc,
      Text.intercalate_append hfirst (List.cons_ne_nil last more), heq, hsegment]
    simp
  · rw [Text.splitOn_intercalate hfirst hbefore, List.filterMap_append, hinit,
      List.filterMap_eq_nil_iff.2 hidle, List.append_nil]

/-- **Whatever stands there instead of the file name** is the last stride, if it is a step. -/
theorem strides_spelling {init trail : List Char} (htext : p.text.toList =
    init ++ '/' :: (segment ++ trail)) (hs : '/' ∉ segment) (htrail : Trails trail) :
    p.strides = (splitOn '/' init).filterMap componentOf? ++ (componentOf? segment).toList := by
  rw [strides, htext, Text.splitOn_separator, List.filterMap_append, htrail.filterMap_splitOn hs]

theorem components_eq_strides (h : p.isAbsolute) : p.components = .root :: p.strides := by
  obtain ⟨body, -, hlead⟩ := exists_splitLead h
  rw [components_eq, filterMap_splitLead, hlead]
  rfl

/-- The file name of an absolute path is its last stride. -/
theorem fileName?_eq_some_iff (h : p.isAbsolute) :
    p.fileName? = some name ↔ ∃ before, p.strides = before ++ [.name name] := by
  rw [fileName?, components_eq_strides h]
  rcases List.eq_nil_or_concat p.strides with hnil | ⟨before, c, hs⟩
  · simp [hnil]
  · rw [List.concat_eq_append] at hs
    rw [hs, ← List.cons_append, List.getLast?_append]
    cases c <;> simp

/-! ## Without extension -/

/-- Cut after the stem of its file name, a path has the stem for its last stride. -/
theorem strides_cutAfterStem (h : p.isAbsolute) (hs : p.strides = before ++ [.name name]) :
    p.cutAfterStem.strides = before ++ (componentOf? (splitName name.toList).1).toList := by
  obtain ⟨body, -, hlead⟩ := exists_splitLead h
  have hname := (fileName?_eq_some_iff h).2 ⟨before, hs⟩
  have hstem : p.stem? = some (String.ofList (splitName name.toList).1) := by rw [stem?, hname]; rfl
  have hslash : '/' ∉ (splitName name.toList).1 := fun hmem =>
    (isStep_of_fileName? hname).2 (splitName_subset _ hmem)
  have hbody := hs
  rw [strides, ← filterMap_splitLead, hlead] at hbody
  obtain ⟨init, last, htrim, hinit⟩ := exists_trimEnd hbody
  have hmem : ∀ s ∈ init ++ [(splitName name.toList).1], '/' ∉ s := by
    intro s hs
    rcases List.mem_append.1 hs with hs | hs
    · have hbefore : s ∈ trimEnd (splitOn '/' body) := by
        rw [htrim]
        exact List.mem_append_left _ hs
      exact Text.not_mem_of_mem_splitOn (mem_of_mem_trimEnd hbefore)
    · rwa [List.mem_singleton.1 hs]
  unfold cutAfterStem
  simp only [hstem, hlead, htrim, List.dropLast_concat, String.toList_ofList]
  rw [strides_ofSegments_root hmem, List.filterMap_append, hinit, filterMap_cons_toList,
    List.filterMap_nil, List.append_nil]

/-- As many characters as the extension has are dropped, whatever trails it. -/
theorem exists_take_trails {trail : List Char} (htrail : Trails trail) (init stem : List Char)
    (hext : '.' ∉ extension) (hslash : '/' ∉ extension) :
    ∃ part rest, '.' ∉ part ∧ '/' ∉ part ∧ Trails rest ∧
      (init ++ '/' :: ((stem ++ '.' :: extension) ++ trail)).take
          ((init ++ '/' :: ((stem ++ '.' :: extension) ++ trail)).length - extension.length) =
        init ++ '/' :: ((stem ++ '.' :: part) ++ rest) := by
  refine ⟨extension.take trail.length, trail.take (trail.length - extension.length),
    fun hmem => hext (List.mem_of_mem_take hmem), fun hmem => hslash (List.mem_of_mem_take hmem),
    htrail.take _, ?_⟩
  have hsplit : init ++ '/' :: ((stem ++ '.' :: extension) ++ trail) =
      (init ++ '/' :: (stem ++ ['.'])) ++ (extension ++ trail) := by simp
  have hlength : ((init ++ '/' :: (stem ++ ['.'])) ++ (extension ++ trail)).length -
      extension.length = (init ++ '/' :: (stem ++ ['.'])).length + trail.length := by
    simp only [List.length_append]
    omega
  rw [hsplit, hlength, List.take_length_add_append, List.take_append]
  simp

section
variable (h : p.isAbsolute) (hs : p.strides = before ++ [.name name])
  (hsplit : splitName name.toList = (stem, some extension)) (hdot : stem ≠ ['.'])
include h hs hsplit hdot

/-- **Without its extension** an absolute path has the stem of its file name for its last stride. -/
theorem strides_withoutExtension :
    p.withoutExtension.strides = before ++ (componentOf? stem).toList := by
  obtain ⟨init, trail, htext, htrail, hinit⟩ := exists_spelling h hs
  obtain ⟨hname, hstem, hext⟩ := eq_append_of_splitName hsplit
  have hfile := (fileName?_eq_some_iff h).2 ⟨before, hs⟩
  have hslash := (isStep_of_fileName? hfile).2
  rw [Component.text, hname, List.mem_append, List.mem_cons, not_or, not_or] at hslash
  have hextension : p.extension? = some (String.ofList extension) := by
    rw [extension?, hfile, Option.bind_some, hsplit, Option.map_some]
  obtain ⟨part, rest, hpart, hpartSlash, hrest, htake⟩ :=
    exists_take_trails htrail init stem hext hslash.2.2
  -- What is left is spelled like the path, with a file name that has the same stem.
  have hsegment : '/' ∉ stem ++ '.' :: part := by
    simp [hslash.1, hpartSlash]
  have hcut : splitName (stem ++ '.' :: part) = (stem, some part) :=
    splitName_append hstem hdot hpart
  generalize hleft : (⟨String.ofList (p.text.toList.take
    (p.text.length - (String.ofList extension).length))⟩ : Path) = left
  have hleftText : left.text.toList = init ++ '/' :: ((stem ++ '.' :: part) ++ rest) := by
    rw [← hleft, String.toList_ofList, ← String.length_toList, ← String.length_toList,
      String.toList_ofList, htext, hname, htake]
  have hleftAbsolute : left.isAbsolute := by
    obtain ⟨body, hbody⟩ := isAbsolute_iff.1 h
    rw [htext] at hbody
    cases init with
    | nil => exact isAbsolute_iff.2 ⟨_, hleftText⟩
    | cons d init =>
      obtain ⟨rfl, -⟩ := List.cons.inj hbody
      exact isAbsolute_iff.2 ⟨_, hleftText⟩
  have hleftStrides : left.strides = before ++ [.name (String.ofList (stem ++ '.' :: part))] := by
    rw [strides_spelling hleftText hsegment hrest, hinit, componentOf?_append hstem hdot]
    rfl
  have hwithout : p.withoutExtension = left.cutAfterStem := by
    rw [withoutExtension, hextension, ← hleft]
  rw [hwithout, strides_cutAfterStem hleftAbsolute hleftStrides, String.toList_ofList, hcut]

end

/-! ## Sources -/

/-- The name of a TypeScript source: a stem with one of two extensions behind it. -/
def IsSourceName (name : String) : Prop :=
  ∃ stem ≠ "", name = stem ++ ".ts" ∨ name = stem ++ ".tsx"

/-- The name of a file that holds nothing but declarations. -/
def IsDeclarationName (name : String) : Prop :=
  ∃ stem, name = stem ++ ".d.ts" ∨ name = stem ++ ".d.tsx"

/-- The path of a unit for which output is made: it names a source that is no file of
    declarations. -/
def IsSource (p : Path) : Prop :=
  ∃ name, p.fileName? = some name ∧ IsSourceName name ∧ ¬ IsDeclarationName name

/-- A name has an extension if it is a stem with the extension behind it. -/
theorem splitName_eq_some_iff {extension : String} (hnil : extension ≠ "")
    (hext : '.' ∉ extension.toList) :
    (splitName name.toList).2 = some extension.toList ↔
      ∃ stem ≠ "", name = stem ++ ("." ++ extension) := by
  constructor
  · intro h
    obtain ⟨hwritten, hstem, -⟩ := eq_append_of_splitName (Prod.ext rfl h)
    refine ⟨String.ofList (splitName name.toList).1, fun heq => hstem ?_, ?_⟩
    · simpa using congrArg String.toList heq
    · rw [← String.toList_inj, String.toList_append, String.toList_ofList, String.toList_append]
      exact hwritten
  · rintro ⟨stem, hstem, rfl⟩
    have hchars : stem.toList ≠ [] := fun heq => hstem (String.toList_inj.1 heq)
    have hdots : stem.toList ++ '.' :: extension.toList ≠ ['.', '.'] := by
      intro heq
      have hlength := congrArg List.length heq
      have hstemLength := List.length_pos_iff.2 hchars
      have hextLength : 0 < extension.toList.length :=
        List.length_pos_iff.2 fun heq => hnil (String.toList_inj.1 heq)
      simp only [List.length_append, List.length_cons, List.length_nil] at hlength
      omega
    rw [String.toList_append, String.toList_append]
    exact congrArg Prod.snd (splitName_append_of_ne hchars hdots hext)

theorem isSourceUnit_iff (hname : p.fileName? = some name) :
    p.isSourceUnit = true ↔ IsSourceName name := by
  have hcut : p.isSourceUnit = true ↔ (splitName name.toList).2 = some "ts".toList ∨
      (splitName name.toList).2 = some "tsx".toList := by
    rw [isSourceUnit, extension?, hname, Option.bind_some]
    cases (splitName name.toList).2 with
    | none => simp
    | some chars => simp [← String.toList_inj]
  rw [hcut, splitName_eq_some_iff (by decide) (by decide),
    splitName_eq_some_iff (by decide) (by decide)]
  constructor
  · rintro (⟨stem, hstem, hname⟩ | ⟨stem, hstem, hname⟩)
    · exact ⟨stem, hstem, .inl hname⟩
    · exact ⟨stem, hstem, .inr hname⟩
  · rintro ⟨stem, hstem, hname | hname⟩
    · exact .inl ⟨stem, hstem, hname⟩
    · exact .inr ⟨stem, hstem, hname⟩

theorem isSuffixOf_iff (ending : String) :
    ending.toList.isSuffixOf name.toList = true ↔ ∃ stem, name = stem ++ ending := by
  rw [List.isSuffixOf_iff_suffix]
  constructor
  · rintro ⟨stem, h⟩
    exact ⟨String.ofList stem, by rw [← String.toList_inj]; simp [h]⟩
  · rintro ⟨stem, rfl⟩
    rw [String.toList_append]
    exact List.suffix_append ..

theorem isDeclarationUnit_iff (hname : p.fileName? = some name) :
    p.isDeclarationUnit = true ↔ IsDeclarationName name := by
  rw [isDeclarationUnit, hname]
  simp only [Bool.or_eq_true, isSuffixOf_iff]
  exact exists_or.symm

/-- **For which units output is made**: for sources. -/
theorem isEligible_iff : p.isEligible = true ↔ p.IsSource := by
  cases hname : p.fileName? with
  | none => simp [isEligible, isSourceUnit, extension?, IsSource, hname]
  | some name =>
    rw [isEligible, Bool.and_eq_true, isSourceUnit_iff hname, Bool.not_eq_true',
      ← Bool.not_eq_true, isDeclarationUnit_iff hname]
    simp [IsSource, hname]

instance : DecidablePred IsSource := fun _ => decidable_of_iff _ isEligible_iff

/-! ## Units -/

/-- The file name of a path with an extension. -/
theorem fileName?_eq_append {stem extension : String} (hstem : p.stem? = some stem)
    (hextension : p.extension? = some extension) :
    p.fileName? = some (stem ++ "." ++ extension) ∧ stem ≠ "" ∧
      splitName (stem ++ "." ++ extension).toList = (stem.toList, some extension.toList) := by
  obtain ⟨name, hname, hcut⟩ := Option.bind_eq_some_iff.1 hextension
  obtain ⟨chars, hchars, rfl⟩ := Option.map_eq_some_iff.1 hcut
  rw [stem?, hname, Option.map_some, Option.some.injEq] at hstem
  have hsplit : splitName name.toList = (stem.toList, some chars) := by
    rw [← hstem, String.toList_ofList, ← hchars]
  obtain ⟨hwritten, hnil, -⟩ := eq_append_of_splitName hsplit
  obtain rfl : name = stem ++ "." ++ String.ofList chars := by
    rw [← String.toList_inj, hwritten]
    simp
  refine ⟨hname, ?_, by rw [hsplit, String.toList_ofList]⟩
  rintro rfl
  exact hnil rfl

theorem exists_sourceExtension (h : p.isEligible) :
    ∃ extension, p.extension? = some extension ∧ extension ∈ ["ts", "tsx"] := by
  rw [isEligible, Bool.and_eq_true, isSourceUnit] at h
  cases hextension : p.extension? with
  | none => simp [hextension] at h
  | some extension => exact ⟨extension, rfl, by simpa [hextension] using h.1⟩

/-- A specifier leaves out the extension of a unit. -/
theorem withoutSourceExtension_eq {extension : String} (h : p.extension? = some extension)
    (hsource : extension ∈ ["ts", "tsx"]) : p.withoutSourceExtension = p.withoutExtension := by
  have hleft : sourceExtensions.contains extension = true := by
    rw [List.contains_iff_mem]
    exact (by decide : ["ts", "tsx"] ⊆ sourceExtensions) hsource
  simp only [withoutSourceExtension, h, hleft, if_true]

/-- **A unit without its source extension** lies beside the unit, if its stem is a name. -/
theorem place_withoutSourceExtension {stem : String} (h : p.isAbsolute) (hp : p.isEligible)
    (hstem : p.stem? = some stem) (hdot : stem ≠ ".") (hdots : stem ≠ "..") :
    ∃ before extension, p.extension? = some extension ∧ extension ∈ ["ts", "tsx"] ∧ stem ≠ "" ∧
      p.place = before ++ [stem ++ "." ++ extension] ∧
      p.withoutSourceExtension.place = before ++ [stem] := by
  obtain ⟨extension, hextension, hsource⟩ := exists_sourceExtension hp
  obtain ⟨hname, hnil, hsplit⟩ := fileName?_eq_append hstem hextension
  obtain ⟨taken, hs⟩ := (fileName?_eq_some_iff h).1 hname
  have hdotChars : stem.toList ≠ ['.'] := fun heq => hdot (String.toList_inj.1 heq)
  have hstrides := strides_withoutExtension h hs hsplit hdotChars
  rw [componentOf?_name hnil hdot hdots, ← withoutSourceExtension_eq hextension hsource]
    at hstrides
  refine ⟨taken.foldl Component.follow [], extension, hextension, hsource, hnil, ?_, ?_⟩
  · rw [place_eq_strides, hs, List.foldl_append]
    rfl
  · rw [place_eq_strides, hstrides, List.foldl_append]
    rfl

end Path

end InterfaceGuards
