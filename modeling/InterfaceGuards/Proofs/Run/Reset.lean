/-
  Clearing a directory.

  * `resetDirectory_of_startsWith`: a directory that the kept file is spelled below is refused.
  * `resetDirectory_eq_ok`: all places on the way to the directory are directories then, and what
    lay in it is gone if the path led somewhere before.
  * `exists_resetDirectory`: an existing directory is always cleared.
  * `grows_or_cleared`: nothing is removed unless an existing directory is cleared.
  * `resetDirectory_eq_error`: a failure changes nothing, if all that `..` is taken back from
    exists.
-/
import InterfaceGuards.Proofs.FileTree.Change

namespace InterfaceGuards

open FileTree (Grows HasDirectory isInside makeDirectories removeAll stepsOf)
open Path.Component (follow passed)

variable {t t' : FileTree} {dir keep : Path} {y : Location} {e : RunError}

/-! ## The parts of a reset -/

/-- **A directory that the kept file is spelled below is refused**, and nothing is removed. -/
theorem resetDirectory_of_startsWith (h : keep.startsWith dir) :
    t.run (resetDirectory dir keep) = (.error (.holdsManifest dir keep), t) := by
  rw [resetDirectory, if_pos h]
  rfl

theorem resetDirectory_of_isPresent (h : ¬keep.startsWith dir) (hp : t.isPresent dir) :
    t.run (resetDirectory dir keep) = t.run ((removeAll dir).orFail .clearing >>= fun _ =>
      (makeDirectories dir).orFail .clearing) := by
  simp only [resetDirectory, if_neg h]
  rw [FileTree.run_bind, FileTree.run_get]
  simp only [hp, if_true]

theorem resetDirectory_of_not_isPresent (h : ¬keep.startsWith dir) (hp : ¬t.isPresent dir) :
    t.run (resetDirectory dir keep) = t.run ((makeDirectories dir).orFail .clearing) := by
  simp only [resetDirectory, if_neg h]
  rw [FileTree.run_bind, FileTree.run_get]
  simp only [hp, Bool.false_eq_true, if_false]

theorem isPresent_of_hasDirectory (h : t.HasDirectory dir) : t.isPresent dir :=
  FileTree.isPresent_iff.2 ⟨h.1, by simp [h.2]⟩

/-- What is on the way to a directory is on the way to it when it is removed. -/
theorem passable_of_removed {t₁ : FileTree} (h : t.run (removeAll dir) = (.ok (), t₁))
    (hy : y ∈ dir.way) : t₁.Passable y := by
  obtain ⟨⟨hlocate, -⟩, hplace, hnode⟩ := FileTree.removeAll_eq_ok h
  obtain ⟨-, hdirs, -⟩ := FileTree.locate_eq_ok.1 hlocate
  by_cases hyp : y = dir.place
  · rwa [hyp]
  · have hdir := hdirs y ((FileTree.mem_way_iff_dropLast.1 hy).resolve_right hyp)
    apply FileTree.passable_iff.2
    rw [hnode y hyp, hdir]
    split_ifs <;> simp

/-! ## Success -/

/-- **All places on the way to a cleared directory are directories**, and what lay in it is gone if
    the path led somewhere before. -/
theorem resetDirectory_eq_ok (h : t.run (resetDirectory dir keep) = (.ok (), t')) :
    ¬keep.startsWith dir ∧ dir.Fits ∧ (t.isPresent dir → t.HasDirectory dir) ∧
      ∀ y, t'.node? y = if y ∈ dir.way then some .directory
        else if t.isPresent dir ∧ isInside dir.place y then none else t.node? y := by
  have hstart : ¬keep.startsWith dir := by
    intro hs
    rw [resetDirectory_of_startsWith hs] at h
    cases h
  refine ⟨hstart, ?_⟩
  by_cases hp : t.isPresent dir
  · rw [resetDirectory_of_isPresent hstart hp, FileTree.run_bind_eq_ok] at h
    obtain ⟨⟨⟩, t₁, hremove, h⟩ := h
    obtain ⟨hdir, -, hnode₁⟩ := FileTree.removeAll_eq_ok (FileTree.run_orFail_eq_ok.1 hremove)
    obtain ⟨hfits, -, hnode⟩ := FileTree.makeDirectories_eq_ok (FileTree.run_orFail_eq_ok.1 h)
    refine ⟨hfits, fun _ => hdir, fun y => ?_⟩
    rw [hnode]
    by_cases hy : y ∈ dir.way
    · rw [if_pos hy, if_pos hy]
    · have hyp : y ≠ dir.place := by
        rintro rfl
        exact hy Path.place_mem_way
      rw [if_neg hy, if_neg hy, hnode₁ y hyp]
      simp [hp]
  · rw [resetDirectory_of_not_isPresent hstart hp, FileTree.run_orFail_eq_ok] at h
    obtain ⟨hfits, -, hnode⟩ := FileTree.makeDirectories_eq_ok h
    refine ⟨hfits, fun hpresent => absurd hpresent hp, fun y => ?_⟩
    rw [hnode]
    simp [hp]

/-- **An existing directory is always cleared**, unless the kept file is spelled below it. -/
theorem exists_resetDirectory (hstart : ¬keep.startsWith dir) (h : t.HasDirectory dir) :
    ∃ t', t.run (resetDirectory dir keep) = (.ok (), t') := by
  obtain ⟨t₁, hremove⟩ := FileTree.exists_removeAll h
  have hfits := (FileTree.locate_eq_ok.1 h.1).1
  obtain ⟨t', hmake⟩ := FileTree.exists_makeDirectories hfits fun y => passable_of_removed hremove
  refine ⟨t', ?_⟩
  rw [resetDirectory_of_isPresent hstart (isPresent_of_hasDirectory h)]
  exact FileTree.run_bind_eq_ok.2
    ⟨(), t₁, FileTree.run_orFail_eq_ok.2 hremove, FileTree.run_orFail_eq_ok.2 hmake⟩

/-! ## Failure -/

/-- A failure changes nothing, or directories were made on the way to where nothing was. -/
theorem resetDirectory_eq_error (h : t.run (resetDirectory dir keep) = (.error e, t')) :
    t' = t ∨ ¬t.isPresent dir ∧ ∃ cause, t.run (makeDirectories dir) = (.error cause, t') := by
  by_cases hstart : keep.startsWith dir
  · rw [resetDirectory_of_startsWith hstart] at h
    cases h
    exact .inl rfl
  · by_cases hp : t.isPresent dir
    · rw [resetDirectory_of_isPresent hstart hp, FileTree.run_bind_eq_error] at h
      rcases h with h | ⟨⟨⟩, t₁, hremove, h⟩
      · obtain ⟨cause, h, -⟩ := FileTree.run_orFail_eq_error.1 h
        exact .inl (FileTree.removeAll_eq_error h)
      · -- What was removed is no longer in the way.
        obtain ⟨cause, h, -⟩ := FileTree.run_orFail_eq_error.1 h
        have hremove := FileTree.run_orFail_eq_ok.1 hremove
        have hdir := (FileTree.removeAll_eq_ok hremove).1
        have hfits := (FileTree.locate_eq_ok.1 hdir.1).1
        obtain ⟨t₂, hmake⟩ :=
          FileTree.exists_makeDirectories hfits fun y => passable_of_removed hremove
        rw [hmake] at h
        cases h
    · rw [resetDirectory_of_not_isPresent hstart hp, FileTree.run_orFail_eq_error] at h
      obtain ⟨cause, h, -⟩ := h
      exact .inr ⟨hp, cause, h⟩

/-- **Nothing is gone unless an existing directory was cleared.** -/
theorem grows_or_cleared {r : Except RunError Unit}
    (h : t.run (resetDirectory dir keep) = (r, t')) :
    Grows t t' ∨ ¬keep.startsWith dir ∧ t.HasDirectory dir := by
  cases r with
  | error e =>
    rcases resetDirectory_eq_error h with rfl | ⟨-, cause, h⟩
    · exact .inl (Grows.refl t')
    · exact .inl (FileTree.grows_makeDirectories h)
  | ok =>
    by_cases hp : t.isPresent dir
    · obtain ⟨hstart, -, hdir, -⟩ := resetDirectory_eq_ok h
      exact .inr ⟨hstart, hdir hp⟩
    · have hstart := (resetDirectory_eq_ok h).1
      rw [resetDirectory_of_not_isPresent hstart hp, FileTree.run_orFail_eq_ok] at h
      exact .inl (FileTree.grows_makeDirectories h)

end InterfaceGuards
