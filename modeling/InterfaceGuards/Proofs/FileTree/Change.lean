/-
  What the actions on files leave.

  * `FileTree.Grows`: what was there is still there.
  * `FileTree.KeepsKinds`: directories are directories and files are files as before.
  * `FileTree.Passable`: no file is in the way.
  * `makeDirectories_eq_ok`, `exists_makeDirectories`: directories are made on the way, just when it
    is passable; `grows_makeDirectories`: nothing else changes, even when that fails.
  * `removeAll_eq_ok`, `exists_removeAll`: an existing directory is removed with what lies in it.
  * `write_eq_ok`, `exists_write`: a file is written where no directory is.
-/
import InterfaceGuards.Proofs.FileTree.Action
import InterfaceGuards.Proofs.FileTree.Locate

namespace InterfaceGuards

open Path.Component (follow passed)

namespace FileTree

variable {t t' t₁ : FileTree} {p : Path} {here x y : Location} {c : Path.Component}
  {steps : List Path.Component} {e : FileError} {text : String} {n : FileNode}

/-- What was there is still there. -/
def Grows (t t' : FileTree) : Prop := ∀ y n, t.node? y = some n → t'.node? y = some n

/-- Where a directory was there is a directory, and where a file was there is a file. -/
structure KeepsKinds (t t' : FileTree) : Prop where
  directory : ∀ y, t.node? y = some .directory → t'.node? y = some .directory
  file : ∀ y text, t.node? y = some (.file text) → ∃ kept, t'.node? y = some (.file kept)

/-- No file is at a place. -/
def Passable (t : FileTree) (y : Location) : Prop := ∀ text, t.node? y ≠ some (.file text)

theorem Grows.refl (t : FileTree) : Grows t t := fun _ _ h => h

theorem Grows.trans (h : Grows t t₁) (h' : Grows t₁ t') : Grows t t' :=
  fun y n hy => h' y n (h y n hy)

theorem Grows.keepsKinds (h : Grows t t') : KeepsKinds t t' :=
  ⟨fun y hy => h y _ hy, fun y text hy => ⟨text, h y _ hy⟩⟩

theorem KeepsKinds.refl (t : FileTree) : KeepsKinds t t := (Grows.refl t).keepsKinds

theorem KeepsKinds.trans (h : KeepsKinds t t₁) (h' : KeepsKinds t₁ t') : KeepsKinds t t' := by
  refine ⟨fun y hy => h'.directory y (h.directory y hy), fun y text hy => ?_⟩
  obtain ⟨kept, hkept⟩ := h.file y text hy
  exact h'.file y kept hkept

theorem passable_iff : t.Passable y ↔ t.node? y = none ∨ t.node? y = some .directory := by
  unfold Passable
  rcases t.node? y with _ | _ | _ <;> simp

theorem passable_of_directory (h : t.node? y = some .directory) : t.Passable y :=
  passable_iff.2 (.inr h)

/-! ## One directory further -/

theorem enterOrMake_eq_ok (h : t.run (enterOrMake here c) = (.ok x, t')) :
    t.node? here = some .directory ∧ c.Fits ∧ follow here c = x ∧ t.Passable x ∧
      ∀ y, t'.node? y = if y = x then some .directory else t.node? y := by
  rw [run_enterOrMake] at h
  rcases henter : t.enter here c with e | z
  · rw [henter] at h
    cases h
  · rw [henter] at h
    obtain ⟨hdir, hc, hz⟩ := enter_eq_ok.1 henter
    rcases hn : t.node? z with _ | _ | text
    · simp only [hn] at h
      cases h
      have hroot : x ≠ [] := ne_root_of_node? (t := t) (by simp [hn])
      exact ⟨hdir, hc, hz, passable_iff.2 (.inl hn), fun y => node?_insert hroot⟩
    · simp only [hn] at h
      cases h
      refine ⟨hdir, hc, hz, passable_of_directory hn, fun y => ?_⟩
      split_ifs with hy
      · rw [hy, hn]
      · rfl
    · simp only [hn] at h
      cases h

theorem enterOrMake_eq_error (h : t.run (enterOrMake here c) = (.error e, t')) : t' = t := by
  rw [run_enterOrMake] at h
  rcases henter : t.enter here c with e | z
  · rw [henter] at h
    cases h
    rfl
  · rw [henter] at h
    rcases hn : t.node? z with _ | _ | text <;> simp only [hn] at h <;> cases h
    rfl

theorem exists_enterOrMake (hdir : t.node? here = some .directory) (hc : c.Fits)
    (hpass : t.Passable (follow here c)) :
    ∃ t', t.run (enterOrMake here c) = (.ok (follow here c), t') := by
  rw [run_enterOrMake, enter_eq_ok.2 ⟨hdir, hc, rfl⟩]
  rcases passable_iff.1 hpass with hn | hn <;> simp [hn]

theorem grows_enterOrMake {r : Except FileError Location}
    (h : t.run (enterOrMake here c) = (r, t')) : Grows t t' := by
  cases r with
  | error e => rw [enterOrMake_eq_error h]; exact Grows.refl t
  | ok x =>
    obtain ⟨-, -, -, hpass, hnode⟩ := enterOrMake_eq_ok h
    intro y n hy
    rw [hnode]
    split_ifs with hyx
    · subst hyx
      rcases passable_iff.1 hpass with hn | hn
      · rw [hn] at hy
        cases hy
      · rw [← hy, hn]
    · exact hy

/-! ## All directories on a way -/

theorem foldlM_enterOrMake_eq_ok (hdir : t.node? here = some .directory)
    (h : t.run (steps.foldlM enterOrMake here) = (.ok x, t')) :
    (∀ c ∈ steps, c.Fits) ∧ (∀ y ∈ passed here steps, t.Passable y) ∧
      ∀ y, t'.node? y = if y ∈ passed here steps then some .directory else t.node? y := by
  induction steps generalizing here t with
  | nil =>
    cases h
    refine ⟨by simp, fun y hy => ?_, fun y => ?_⟩
    · have hhere : y = x := by simpa [passed] using hy
      exact hhere ▸ passable_of_directory hdir
    · split_ifs with hy
      · have hhere : y = x := by simpa [passed] using hy
        rw [hhere, hdir]
      · rfl
  | cons c steps ih =>
    rw [List.foldlM_cons, run_bind_eq_ok] at h
    obtain ⟨z, t₁, hstep, h⟩ := h
    obtain ⟨-, hc, hz, hpass, hnode⟩ := enterOrMake_eq_ok hstep
    have hz' : t₁.node? z = some .directory := by rw [hnode, if_pos rfl]
    obtain ⟨hfits, hpasses, hnodes⟩ := ih hz' h
    have hmem : ∀ y, y ∈ passed here (c :: steps) ↔ y = here ∨ y ∈ passed z steps := by
      intro y
      rw [Path.Component.passed_cons, List.mem_cons, hz]
    refine ⟨?_, fun y hy => ?_, fun y => ?_⟩
    · simpa [hc] using hfits
    · rcases (hmem y).1 hy with rfl | hy
      · exact passable_of_directory hdir
      · by_cases hyz : y = z
        · rwa [hyz]
        · have := hpasses y hy
          rwa [Passable, hnode, if_neg hyz] at this
    · rw [hnodes, hnode]
      by_cases hy : y ∈ passed z steps
      · rw [if_pos hy, if_pos ((hmem y).2 (.inr hy))]
      · have hyz : y ≠ z := fun heq => hy (heq ▸ Path.Component.mem_passed_self)
        rw [if_neg hy, if_neg hyz]
        by_cases hyh : y = here
        · rw [if_pos ((hmem y).2 (.inl hyh)), hyh, hdir]
        · rw [if_neg fun hm => ((hmem y).1 hm).elim hyh hy]

theorem exists_foldlM_enterOrMake (hdir : t.node? here = some .directory)
    (hfits : ∀ c ∈ steps, c.Fits) (hpass : ∀ y ∈ passed here steps, t.Passable y) :
    ∃ x t', t.run (steps.foldlM enterOrMake here) = (.ok x, t') := by
  induction steps generalizing here t with
  | nil => exact ⟨here, t, rfl⟩
  | cons c steps ih =>
    rw [Path.Component.passed_cons] at hpass
    have hnext := hpass (follow here c) (by simp [Path.Component.mem_passed_self])
    obtain ⟨t₁, hstep⟩ := exists_enterOrMake hdir (hfits c (by simp)) hnext
    obtain ⟨-, -, -, -, hnode⟩ := enterOrMake_eq_ok hstep
    have hpass₁ : ∀ y ∈ passed (follow here c) steps, t₁.Passable y := by
      intro y hy
      rw [Passable, hnode]
      split_ifs with heq
      · simp
      · exact hpass y (by simp [hy])
    have hdir₁ : t₁.node? (follow here c) = some .directory := by rw [hnode, if_pos rfl]
    obtain ⟨x, t', h⟩ := ih hdir₁ (fun d hd => hfits d (by simp [hd])) hpass₁
    exact ⟨x, t', by rw [List.foldlM_cons]; exact run_bind_eq_ok.2 ⟨_, _, hstep, h⟩⟩

theorem grows_foldlM_enterOrMake {r : Except FileError Location}
    (h : t.run (steps.foldlM enterOrMake here) = (r, t')) : Grows t t' := by
  induction steps generalizing here t with
  | nil =>
    cases h
    exact Grows.refl _
  | cons c steps ih =>
    rw [List.foldlM_cons, run_bind] at h
    rcases hstep : t.run (enterOrMake here c) with ⟨e | x, t₁⟩
    · rw [hstep] at h
      cases h
      exact grows_enterOrMake hstep
    · rw [hstep] at h
      exact (grows_enterOrMake hstep).trans (ih h)

theorem fits_of_not_isEarly (h : ∀ e, t.locate p = .error e → ¬FileError.IsEarly e) :
    '\x00' ∉ p.text.toList := by
  intro hnul
  exact h .invalidName (by simp [locate, hnul]) (.inl rfl)

/-- **Making directories turns all places on the way into directories**, and changes nothing
    else. -/
theorem makeDirectories_eq_ok (h : t.run (makeDirectories p) = (.ok (), t')) :
    p.Fits ∧ (∀ y ∈ p.way, t.Passable y) ∧
      ∀ y, t'.node? y = if y ∈ p.way then some .directory else t.node? y := by
  have hearly : ∀ e, t.locate p = .error e → ¬FileError.IsEarly e := by
    intro e hl he
    rw [run_makeDirectories_of_isEarly hl he] at h
    cases h
  rw [run_makeDirectories hearly] at h
  obtain ⟨x, t₁, hfold, h⟩ := run_bind_eq_ok.1 h
  cases h
  obtain ⟨hfits, hpass, hnode⟩ := foldlM_enterOrMake_eq_ok node?_root hfold
  exact ⟨⟨fits_of_not_isEarly hearly, hfits⟩, hpass, hnode⟩

/-- **Directories can be made along a path that fits if no file is on the way.** -/
theorem exists_makeDirectories (hfits : p.Fits) (hpass : ∀ y ∈ p.way, t.Passable y) :
    ∃ t', t.run (makeDirectories p) = (.ok (), t') := by
  have hearly : ∀ e, t.locate p = .error e → ¬FileError.IsEarly e := by
    intro e hl he
    obtain ⟨taken, c, rest, hsteps, -, hcause⟩ := locate_eq_error hfits hl
    have hplace : taken.foldl follow [] ∈ p.way :=
      Path.Component.mem_passed_iff.2 ⟨taken, by simp [hsteps], rfl⟩
    rcases hcause with ⟨rfl, -⟩ | ⟨-, text, hfile⟩
    · simp [FileError.IsEarly] at he
    · exact hpass _ hplace text hfile
  obtain ⟨x, t', h⟩ := exists_foldlM_enterOrMake node?_root hfits.2 hpass
  exact ⟨t', by rw [run_makeDirectories hearly]; exact run_bind_eq_ok.2 ⟨x, t', h, rfl⟩⟩

/-- **What was there is still there when directories are made**, even when that fails. -/
theorem grows_makeDirectories {r : Except FileError Unit}
    (h : t.run (makeDirectories p) = (r, t')) : Grows t t' := by
  by_cases hearly : ∀ e, t.locate p = .error e → ¬FileError.IsEarly e
  · rw [run_makeDirectories hearly, run_bind] at h
    rcases hfold : t.run ((stepsOf p).foldlM enterOrMake []) with ⟨e | x, t₁⟩
    all_goals
      rw [hfold] at h
      cases h
      exact grows_foldlM_enterOrMake hfold
  · push Not at hearly
    obtain ⟨e, hl, he⟩ := hearly
    rw [run_makeDirectories_of_isEarly hl he] at h
    cases h
    exact Grows.refl t

/-! ## Removing -/

/-- A path leads to a directory. -/
def HasDirectory (t : FileTree) (p : Path) : Prop :=
  t.locate p = .ok p.place ∧ t.node? p.place = some .directory

theorem isPresent_iff :
    t.isPresent p ↔ t.locate p = .ok p.place ∧ (t.node? p.place).isSome := by
  unfold isPresent
  rcases hl : t.locate p with e | x
  · simp
  · obtain ⟨-, -, rfl⟩ := locate_eq_ok.1 hl
    simp

/-- **A directory is removed with what lies in it**; that it stays itself, empty, is left open. -/
theorem removeAll_eq_ok (h : t.run (removeAll p) = (.ok (), t')) :
    t.HasDirectory p ∧ t'.Passable p.place ∧
      ∀ y, y ≠ p.place → t'.node? y = if isInside p.place y then none else t.node? y := by
  rw [run_removeAll] at h
  rcases hl : t.locate p with e | x
  · rw [hl] at h
    cases h
  · obtain ⟨-, -, rfl⟩ := locate_eq_ok.1 hl
    rw [hl] at h
    rcases hn : t.node? p.place with _ | _ | text <;> simp only [hn] at h
    · cases h
    · have hclear : (t.clear p.place).node? p.place = some .directory := by
        rw [node?_clear, if_neg (by simp [isInside]), hn]
      refine ⟨⟨hl, hn⟩, ?_⟩
      cases h
      rcases (t.clear p.place).locate p with e | x
      · exact ⟨passable_of_directory hclear, fun y _ => node?_clear⟩
      · refine ⟨passable_iff.2 ?_, fun y hy => ?_⟩
        · simp only [node?_erase, hclear]
          split_ifs <;> simp
        · simp only [node?_erase, node?_clear, hy, false_and, if_false]
    · cases h

theorem removeAll_eq_error (h : t.run (removeAll p) = (.error e, t')) : t' = t := by
  rw [run_removeAll] at h
  rcases hl : t.locate p with e | x
  · rw [hl] at h
    cases h
    rfl
  · rw [hl] at h
    rcases hn : t.node? x with _ | _ | text <;> simp only [hn] at h <;> cases h <;> rfl

/-- An existing directory can be removed. -/
theorem exists_removeAll (h : t.HasDirectory p) : ∃ t', t.run (removeAll p) = (.ok (), t') := by
  rw [run_removeAll, h.1]
  simp only [h.2]
  exact ⟨_, rfl⟩

/-! ## Writing -/

/-- **A file is written where a path leads**, if no directory is there. -/
theorem write_eq_ok (h : t.run (write p text) = (.ok (), t')) :
    t.locate p = .ok p.place ∧ t.node? p.place ≠ some .directory ∧
      ∀ y, t'.node? y = if y = p.place then some (.file text) else t.node? y := by
  rw [run_write] at h
  rcases hl : t.locate p with e | x
  · rw [hl] at h
    cases h
  · obtain ⟨-, -, rfl⟩ := locate_eq_ok.1 hl
    rw [hl] at h
    have hroot : t.node? p.place ≠ some .directory → t' = t.insert p.place (.file text) →
        ∀ y, t'.node? y = if y = p.place then some (.file text) else t.node? y := by
      rintro hn rfl y
      exact node?_insert (ne_root_of_node? hn)
    rcases hn : t.node? p.place with _ | _ | old <;> simp only [hn] at h <;> cases h
    · exact ⟨rfl, by simp, hroot (by simp [hn]) rfl⟩
    · exact ⟨rfl, by simp, hroot (by simp [hn]) rfl⟩

theorem write_eq_error (h : t.run (write p text) = (.error e, t')) : t' = t := by
  rw [run_write] at h
  rcases hl : t.locate p with e | x
  · rw [hl] at h
    cases h
    rfl
  · rw [hl] at h
    rcases hn : t.node? x with _ | _ | old <;> simp only [hn] at h <;> cases h
    rfl

theorem exists_write (hl : t.locate p = .ok p.place) (hn : t.node? p.place ≠ some .directory)
    (text : String) : ∃ t', t.run (write p text) = (.ok (), t') := by
  rw [run_write, hl]
  rcases hnode : t.node? p.place with _ | _ | old
  · simp only [hnode]
    exact ⟨_, rfl⟩
  · exact absurd hnode hn
  · simp only [hnode]
    exact ⟨_, rfl⟩

theorem keepsKinds_write {r : Except FileError Unit} (h : t.run (write p text) = (r, t')) :
    KeepsKinds t t' := by
  cases r with
  | error e => rw [write_eq_error h]; exact KeepsKinds.refl t
  | ok =>
    obtain ⟨-, hplace, hnode⟩ := write_eq_ok h
    refine ⟨fun y hy => ?_, fun y old hy => ?_⟩
    · rw [hnode, if_neg, hy]
      rintro rfl
      exact hplace hy
    · rw [hnode]
      split_ifs with hyp
      · exact ⟨text, rfl⟩
      · exact ⟨old, hy⟩

end FileTree

end InterfaceGuards
