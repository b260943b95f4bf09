/-
  What a failed run changes.

  * `FileTree.Ready`: a tree in which a destination can be cleared or is left alone.
  * `resetDirectory_unchanged`: there a failure to clear the destination changes nothing.
  * `node?_inside_cleared`: and nothing lies in a cleared destination but what its own path passes.
  * `writeAll_isOk_iff`: into it all files are written exactly if they are apart.
  * `failed_run_unchanged`: so a failed run changes nothing, if the files of its plan are apart.
  * `failure_left_traces`: a failed run that has cleared its destination.
-/
import InterfaceGuards.CommandLine.Execution
import InterfaceGuards.Proofs.Run.Output
import InterfaceGuards.Proofs.Run.Reset

namespace InterfaceGuards

open FileTree (isInside makeDirectories stepOf stepsOf)
open Path.Component (follow passed)

variable {t t' t₁ : FileTree} {p dir keep : Path} {here y : Location}
  {steps : List Path.Component} {e : RunError} {files : List OutputFile}

namespace FileTree

/-! ## Ways through what does not exist -/

/-- A path leads upwards only from directories that exist. -/
def Grounded (t : FileTree) (p : Path) : Prop :=
  ∀ taken, taken ++ [.parent] <+: stepsOf p → t.node? (taken.foldl follow []) = some .directory

/-- A tree in which a destination can be cleared or is left alone: its path fits and leads upwards
    only from directories that exist. -/
structure Ready (t : FileTree) (dir : Path) : Prop where
  tree : t.IsTree
  fits : dir.Fits
  grounded : t.Grounded dir

theorem root_not_mem_stepsOf : .root ∉ stepsOf p := by
  intro h
  obtain ⟨segment, -, hs⟩ := List.mem_map.1 h
  unfold stepOf at hs
  split_ifs at hs

/-- From where nothing is, only places are passed where nothing is, as long as no step leads
    upwards. -/
theorem node?_of_passed_absent (htree : t.IsTree) (hn : t.node? here = none)
    (hroot : .root ∉ steps)
    (hback : ∀ taken, taken ++ [.parent] <+: steps →
      t.node? (taken.foldl follow here) = some .directory)
    (hy : y ∈ passed here steps) : t.node? y = none := by
  induction steps generalizing here with
  | nil =>
    have hhere : y = here := by simpa [passed] using hy
    rwa [hhere]
  | cons c steps ih =>
    rw [Path.Component.passed_cons, List.mem_cons] at hy
    rcases hy with rfl | hy
    · exact hn
    · refine ih ?_ (fun hm => hroot (by simp [hm])) (fun taken htaken => ?_) hy
      · cases c with
        | root => simp at hroot
        | current => exact hn
        | parent =>
          have hdir := hback [] (by simp)
          rw [List.foldl_nil, hn] at hdir
          cases hdir
        | name text =>
          rcases hnext : t.node? (here ++ [text]) with _ | n
          · exact hnext
          · have hdir := htree.parent hnext
            rw [List.dropLast_concat, hn] at hdir
            cases hdir
      · exact hback (c :: taken) ((List.prefix_cons_inj c).2 htaken)

/-- A destination that is not there, and at which no file is found on the way, can be made, and
    nothing is at its place. -/
theorem Ready.of_notFound (h : t.Ready dir) (hl : t.locate dir = .error .notFound) :
    (∀ y ∈ dir.way, t.Passable y) ∧ t.node? dir.place = none := by
  obtain ⟨taken, c, rest, hsteps, hdirs, hcause⟩ := locate_eq_error h.fits hl
  have hn : t.node? (taken.foldl follow []) = none := by
    rcases hcause with ⟨-, hn⟩ | ⟨hne, -⟩
    · exact hn
    · cases hne
  have hrest : ∀ y ∈ passed (taken.foldl follow []) (c :: rest), t.node? y = none := by
    intro y hy
    refine node?_of_passed_absent h.tree hn (fun hm => ?_) (fun more hmore => ?_) hy
    · exact root_not_mem_stepsOf (p := dir) (by rw [hsteps]; exact List.mem_append_right _ hm)
    · have hback := h.grounded (taken ++ more) (by
        rw [hsteps, List.append_assoc, List.prefix_append_right_inj]
        exact hmore)
      rwa [List.foldl_append] at hback
  constructor
  · intro y hy
    rw [Path.way, hsteps, Path.Component.mem_passed_append] at hy
    apply passable_iff.2
    rcases hy with hy | hy
    · rcases hdirs y hy with rfl | hdir
      · exact .inl hn
      · exact .inr hdir
    · exact .inl (hrest y hy)
  · rw [Path.place, hsteps, List.foldl_append]
    exact hrest _ Path.Component.foldl_mem_passed

/-- What a path that leads nowhere leads to. -/
theorem Ready.of_not_isPresent (h : t.Ready dir) (hp : ¬t.isPresent dir) :
    (∃ cause, FileError.IsEarly cause ∧ t.locate dir = .error cause) ∨
      (∀ y ∈ dir.way, t.Passable y) ∧ t.node? dir.place = none := by
  rcases hl : t.locate dir with cause | x
  · obtain ⟨taken, c, rest, -, -, ⟨rfl, -⟩ | ⟨rfl, -⟩⟩ := locate_eq_error h.fits hl
    · exact .inr (h.of_notFound hl)
    · exact .inl ⟨_, .inr rfl, rfl⟩
  · obtain ⟨-, hdirs, rfl⟩ := locate_eq_ok.1 hl
    have hn : t.node? dir.place = none := by
      rcases hn : t.node? dir.place with _ | n
      · rfl
      · exact absurd (isPresent_iff.2 ⟨hl, by simp [hn]⟩) hp
    refine .inr ⟨fun y hy => ?_, hn⟩
    rcases mem_way_iff_dropLast.1 hy with hy | rfl
    · exact passable_of_directory (hdirs y hy)
    · exact passable_iff.2 (.inl hn)

end FileTree

/-! ## Clearing -/

/-- **A failure to clear the destination changes nothing.** -/
theorem resetDirectory_unchanged (hready : t.Ready dir)
    (h : t.run (resetDirectory dir keep) = (.error e, t')) : t' = t := by
  rcases resetDirectory_eq_error h with rfl | ⟨hp, cause, hmake⟩
  · rfl
  · rcases hready.of_not_isPresent hp with ⟨early, hearly, hl⟩ | ⟨hpass, -⟩
    · rw [FileTree.run_makeDirectories_of_isEarly hl hearly] at hmake
      cases hmake
      rfl
    · obtain ⟨t₁, hok⟩ := FileTree.exists_makeDirectories hready.fits hpass
      rw [hok] at hmake
      cases hmake

/-- **Nothing lies in a cleared destination** but directories that its own path passes. -/
theorem node?_inside_cleared (hready : t.Ready dir)
    (h : t.run (resetDirectory dir keep) = (.ok (), t₁)) (hin : isInside dir.place y)
    (hy : y ∉ dir.way) : t₁.node? y = none := by
  obtain ⟨hstart, -, -, hnode⟩ := resetDirectory_eq_ok h
  rw [hnode, if_neg hy]
  by_cases hp : t.isPresent dir
  · rw [if_pos ⟨hp, hin⟩]
  · rw [if_neg fun hboth => hp hboth.1]
    rcases hready.of_not_isPresent hp with ⟨cause, hearly, hl⟩ | ⟨-, hplace⟩
    · rw [resetDirectory_of_not_isPresent hstart hp, FileTree.run_orFail_eq_ok,
        FileTree.run_makeDirectories_of_isEarly hl hearly] at h
      cases h
    · rcases hn : t.node? y with _ | n
      · rfl
      · obtain ⟨hbelow, hne⟩ := FileTree.isInside_iff.1 hin
        rw [hready.tree.above hn hbelow hne] at hplace
        cases hplace

/-! ## Writing -/

/-- **Into a cleared destination files are written exactly if they fit and are apart.** -/
theorem writeAll_isOk_iff (hdir : dir.IsRooted) (hready : t.Ready dir)
    (hplain : ∀ f ∈ files, f.path.IsPlain)
    (h : t.run (resetDirectory dir keep) = (.ok (), t₁)) :
    (t₁.run (writeAll files dir)).1.isOk ↔ (∀ f ∈ files, f.path.Fits) ∧ Apart files dir := by
  constructor
  · intro hok
    rcases hrun : t₁.run (writeAll files dir) with ⟨r, t'⟩
    rw [hrun] at hok
    obtain ⟨⟨⟩, rfl⟩ := exists_ok_of_isOk hok
    have hw := writeAll_eq_ok hdir hplain hrun
    exact ⟨hw.fits, hw.apart⟩
  · rintro ⟨hfits, hapart⟩
    obtain ⟨-, -, -, hnode⟩ := resetDirectory_eq_ok h
    have hway : ∀ y ∈ dir.way, t₁.node? y = some .directory := fun y hy => by
      rw [hnode, if_pos hy]
    have hinside : ∀ names : List String, dir.place ++ names ∉ dir.way →
        t₁.node? (dir.place ++ names) = none := by
      intro names hy
      have hne := Path.ne_nil_of_not_mem_way hy
      exact node?_inside_cleared hready h (FileTree.isInside_append.2 hne) hy
    have hpass : ∀ f ∈ files, ∀ y, f.Passes dir y → t₁.Passable y := by
      rintro f hf y (hy | ⟨first, -, -, rfl⟩)
      · exact FileTree.passable_of_directory (hway y hy)
      · by_cases hy : dir.place ++ first ∈ dir.way
        · exact FileTree.passable_of_directory (hway _ hy)
        · exact FileTree.passable_iff.2 (.inl (hinside first hy))
    have hfree : ∀ f ∈ files, t₁.node? (f.place dir) ≠ some .directory := by
      intro f hf
      have hy : f.place dir ∉ dir.way := (hapart f hf).1
      rw [OutputFile.place, hinside f.names hy]
      simp
    obtain ⟨t', hok⟩ := exists_writeAll hdir hready.fits (fun f hf => ⟨hplain f hf, hfits f hf⟩)
      hapart hpass hfree
    rw [hok]
    rfl

/-! ## Runs -/

variable {plan : Plan}

/-- After its destination was cleared a plan is carried out exactly if its files fit and are
    apart. -/
theorem carryOut_isOk_iff (hdir : dir.IsRooted) (hready : t.Ready dir)
    (hplain : ∀ f ∈ plan.files, f.path.IsPlain) (h : (t.run (resetDirectory dir keep)).1.isOk) :
    (t.run (plan.carryOut dir keep)).1.isOk ↔
      (∀ f ∈ plan.files, f.path.Fits) ∧ Apart plan.files dir := by
  rcases hreset : t.run (resetDirectory dir keep) with ⟨r, t₁⟩
  rw [hreset] at h
  obtain ⟨⟨⟩, rfl⟩ := exists_ok_of_isOk h
  rw [← writeAll_isOk_iff hdir hready hplain hreset, carryOut_eq, FileTree.run_bind, hreset]

/-- A plan whose destination is not cleared is not carried out, and nothing is changed. -/
theorem carryOut_of_error (hready : t.Ready dir)
    (h : (t.run (resetDirectory dir keep)).1 = .error e) :
    t.run (plan.carryOut dir keep) = (.error e, t) := by
  rcases hreset : t.run (resetDirectory dir keep) with ⟨r, t₁⟩
  rw [hreset] at h
  subst h
  rw [carryOut_eq, FileTree.run_bind, hreset, resetDirectory_unchanged hready hreset]

/-- **A failed run changes nothing, if the files of its plan are apart.**  A dry run changes nothing
    at all, nor does a run without a plan or one that is refused; a failure to clear the destination
    changes nothing, and after that a run fails exactly if the files of the plan do not fit or are
    not apart. -/
theorem failed_run_unchanged (t : FileTree) (s : Settings) (project : Project)
    (cwd manifest : Path) :
    let dir := s.destination.absoluteFrom cwd
    let keep := manifest.absoluteFrom cwd
    (t.run (s.generate project cwd manifest true)).2 = t ∧
    (∀ e dryRun, s.plan project = .error e →
      t.run (s.generate project cwd manifest dryRun) = (.error e, t)) ∧
    ∀ plan, s.plan project = .ok plan →
      (keep.startsWith dir →
        t.run (s.generate project cwd manifest false) = (.error (.holdsManifest dir keep), t)) ∧
      (cwd.isAbsolute → t.Ready dir → (∀ f ∈ plan.files, f.path.IsPlain) →
        (∀ e, (t.run (resetDirectory dir keep)).1 = .error e →
          t.run (s.generate project cwd manifest false) = (.error e, t)) ∧
        ((t.run (resetDirectory dir keep)).1.isOk →
          ((t.run (s.generate project cwd manifest false)).1.isOk ↔
            (∀ f ∈ plan.files, f.path.Fits) ∧ Apart plan.files dir)) ∧
        ((∀ f ∈ plan.files, f.path.Fits) → Apart plan.files dir → ∀ e t',
          t.run (s.generate project cwd manifest false) = (.error e, t') → t' = t)) := by
  intro dir keep
  refine ⟨?_, fun e dryRun he => ?_, fun plan hplan => ⟨fun hstart => ?_, ?_⟩⟩
  · unfold Settings.generate
    rcases s.plan project with e | plan <;> rfl
  · simp only [Settings.generate, he]
    rfl
  · refine run_generate_of_error hplan ?_
    rw [carryOut_eq, FileTree.run_bind, resetDirectory_of_startsWith hstart]
  · intro hcwd hready hplain
    have hdir : dir.IsRooted := Path.isRooted_absoluteFrom hcwd s.destination
    have hfailed : ∀ e, (t.run (resetDirectory dir keep)).1 = .error e →
        t.run (s.generate project cwd manifest false) = (.error e, t) :=
      fun e he => run_generate_of_error hplan (carryOut_of_error hready he)
    have hok : (t.run (s.generate project cwd manifest false)).1.isOk ↔
        (t.run (plan.carryOut dir keep)).1.isOk := by
      rcases hc : t.run (plan.carryOut dir keep) with ⟨e | u, t'⟩
      · rw [run_generate_of_error hplan hc]
        rfl
      · rw [run_generate_of_ok hplan hc]
        rfl
    refine ⟨hfailed, fun hreset => ?_, fun hfits hapart e t' h => ?_⟩
    · rw [hok]
      exact carryOut_isOk_iff hdir hready hplain hreset
    · rcases hreset : (t.run (resetDirectory dir keep)).1 with cause | u
      · have hsame := (hfailed cause hreset).symm.trans h
        exact (Prod.mk.inj hsame).2.symm
      · have hcleared : (t.run (resetDirectory dir keep)).1.isOk := by
          rw [hreset]
          rfl
        have hsome := hok.2 ((carryOut_isOk_iff hdir hready hplain hcleared).2 ⟨hfits, hapart⟩)
        rw [h] at hsome
        cases hsome

/-- A run that finds a file in the place of its destination changes nothing. -/
theorem failed_run_unchanged_blocked :
    let t : FileTree := ⟨[(["p"], .directory), (["p", "shapes.toml"], .file ""),
      (["p", "schema"], .file "text")]⟩
    let project : Project := ⟨⟨Manifest.noSettings, []⟩, ⟨"/p"⟩,
      ⟨[⟨⟨"/p/a.ts"⟩, [⟨"A", .interfaceType, [], []⟩]⟩]⟩⟩
    ∃ e, t.run ((Settings.ofProject project).generate project ⟨"/p"⟩ ⟨"shapes.toml"⟩ false) =
      (.error e, t) := by
  intro t project
  have hcwd : (⟨"/p"⟩ : Path).isAbsolute := by decide
  have hdir : (Settings.ofProject project).destination.absoluteFrom ⟨"/p"⟩ = ⟨"/p/schema"⟩ := by
    decide +kernel
  have hready : t.Ready ⟨"/p/schema"⟩ := by
    refine ⟨by decide +kernel, by decide +kernel, fun taken htaken => ?_⟩
    have hparent : .parent ∈ stepsOf ⟨"/p/schema"⟩ := htaken.subset (by simp)
    exact absurd hparent (by decide +kernel)
  have hplan : ((Settings.ofProject project).plan project).map (fun plan =>
      decide (∀ f ∈ plan.files, f.path.IsPlain)) = .ok true := by decide +kernel
  obtain ⟨plan, hp, hplain⟩ := map_eq_ok.1 hplan
  obtain ⟨-, -, hruns⟩ := failed_run_unchanged t (Settings.ofProject project) project ⟨"/p"⟩
    ⟨"shapes.toml"⟩
  have hfailed := ((hruns plan hp).2 hcwd (hdir ▸ hready) (of_decide_eq_true hplain)).1
  have hclear : (t.run (resetDirectory ⟨"/p/schema"⟩
      (Path.absoluteFrom ⟨"shapes.toml"⟩ ⟨"/p"⟩))).1 = .error (.clearing .notDirectory) := by
    decide +kernel
  rw [hdir] at hfailed
  exact ⟨_, hfailed _ hclear⟩

/-- **A failed run that has cleared its destination and left a file**: `a.ts` is to be a file and
    the directory of another. -/
theorem failure_left_traces :
    let text := "units=[\x7bpath='a.ts',interfaces=[\x7bname='A'\x7d]\x7d," ++
      "\x7bpath='a.ts/b.ts',interfaces=[\x7bname='B'\x7d]\x7d]"
    let t : FileTree := ⟨[(["p"], .directory), (["p", "shapes.toml"], .file text),
      (["p", "schema"], .directory), (["p", "schema", "keep.ts"], .file "keep")]⟩
    let after := CommandLine.execute ["generate"] ⟨"/p"⟩ t
    after.1 = .error (.run (.writing ⟨"a.ts/b.ts"⟩ .alreadyExists)) ∧
      after.2.node? ["p", "schema", "keep.ts"] = none ∧
      (after.2.node? ["p", "schema", "a.ts"]).isSome := by
  decide +kernel

end InterfaceGuards
