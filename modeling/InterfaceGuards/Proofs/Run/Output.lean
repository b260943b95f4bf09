/-
  Writing the files of a plan.

  * `OutputFile.place`, `OutputFile.Passes`: where a file goes, and the directories it needs.
  * `write_eq_ok`, `exists_write_of`: one file is written, with its directories, exactly when
    nothing is in their way.
  * `writeAll`: the files written one after the other.
  * `writeAll_eq_ok`: after that each place holds the last file listed for it, and all else is as
    before but for the directories made.
  * `Apart`, `exists_writeAll`: where nothing is in the way all files are written if no file is to
    be where another needs a directory.
  * `run_generate_of_plan`: a run that is not dry carries out its plan.
-/
import InterfaceGuards.Proofs.FileTree.Change
import InterfaceGuards.Proofs.Path.Plain

namespace InterfaceGuards

open FileTree (KeepsKinds Grows makeDirectories)

namespace OutputFile

variable {t t' t₁ : FileTree} {f g : OutputFile} {dir : Path} {y : Location}

/-- The names that lead to the file from the destination. -/
def names (f : OutputFile) : List String := f.path.names

/-- The place of the file below a directory. -/
def place (f : OutputFile) (dir : Path) : Location := dir.place ++ f.names

/-- The place is passed on the way to the directory of the file. -/
def Passes (f : OutputFile) (dir : Path) (y : Location) : Prop :=
  y ∈ dir.way ∨ ∃ first, first <+: f.names ∧ first ≠ f.names ∧ dir.place ++ first = y

theorem passes_place_iff : g.Passes dir (f.place dir) ↔
    f.place dir ∈ dir.way ∨ f.names <+: g.names ∧ f.names ≠ g.names := by
  refine or_congr Iff.rfl ?_
  constructor
  · rintro ⟨first, hfirst, hne, heq⟩
    rw [← List.append_cancel_left heq]
    exact ⟨hfirst, hne⟩
  · rintro ⟨hfirst, hne⟩
    exact ⟨f.names, hfirst, hne, rfl⟩

/-! ## One file -/

/-- What was there keeps its kind when a file is written, even when that fails. -/
theorem keepsKinds_write {r : Except FileError Unit} (h : t.run (f.write dir) = (r, t')) :
    KeepsKinds t t' := by
  unfold OutputFile.write at h
  rcases hparent : (dir.join f.path).parent? with _ | parent
  · simp only [hparent] at h
    exact FileTree.keepsKinds_write h
  · simp only [hparent, FileTree.run_bind] at h
    rcases hmake : t.run (makeDirectories parent) with ⟨e | u, t₁⟩
    · rw [hmake] at h
      cases h
      exact (FileTree.grows_makeDirectories hmake).keepsKinds
    · rw [hmake] at h
      exact (FileTree.grows_makeDirectories hmake).keepsKinds.trans (FileTree.keepsKinds_write h)

/-- **A file is written with its directories**, when it and they fit, no file is where a directory
    is needed and no directory where the file goes. -/
theorem write_eq_ok (hd : dir.IsRooted) (hf : f.path.IsPlain)
    (h : t.run (f.write dir) = (.ok (), t')) :
    (dir.Fits ∧ f.path.Fits) ∧ (∀ y, f.Passes dir y → t.Passable y) ∧
      ¬f.Passes dir (f.place dir) ∧ t.node? (f.place dir) ≠ some .directory ∧
      (t'.node? (f.place dir) = some (.file f.text)) ∧
      (∀ y, f.Passes dir y → t'.node? y = some .directory) ∧
      ∀ y, y ≠ f.place dir → ¬f.Passes dir y → t'.node? y = t.node? y := by
  obtain ⟨parent, hb⟩ := Path.exists_below hd hf
  have hplace : (dir.join f.path).place = f.place dir := hb.place_eq
  have hway : ∀ y, y ∈ parent.way ↔ f.Passes dir y := fun y => hb.mem_way_iff
  unfold OutputFile.write at h
  simp only [hb.parent_eq, FileTree.run_bind_eq_ok] at h
  obtain ⟨⟨⟩, t₁, hmake, h⟩ := h
  obtain ⟨-, hpass, hnode₁⟩ := FileTree.makeDirectories_eq_ok hmake
  obtain ⟨hlocate, hfree, hnode⟩ := FileTree.write_eq_ok h
  rw [hplace] at hfree hnode
  have hnot : ¬f.Passes dir (f.place dir) := by
    intro hp
    rw [hnode₁, if_pos ((hway _).2 hp)] at hfree
    exact hfree rfl
  refine ⟨hb.fits_iff.1 (FileTree.locate_eq_ok.1 hlocate).1, fun y hy => hpass y ((hway y).2 hy),
    hnot, ?_, by rw [hnode, if_pos rfl], fun y hy => ?_, fun y hne hy => ?_⟩
  · rwa [hnode₁, if_neg fun hm => hnot ((hway _).1 hm)] at hfree
  · have hne : y ≠ f.place dir := by
      rintro rfl
      exact hnot hy
    rw [hnode, if_neg hne, hnode₁, if_pos ((hway y).2 hy)]
  · rw [hnode, if_neg hne, hnode₁, if_neg fun hm => hy ((hway y).1 hm)]

theorem exists_write_of (hd : dir.IsRooted) (hf : f.path.IsPlain) (hfits : dir.Fits ∧ f.path.Fits)
    (hpass : ∀ y, f.Passes dir y → t.Passable y) (hnot : ¬f.Passes dir (f.place dir))
    (hfree : t.node? (f.place dir) ≠ some .directory) :
    ∃ t', t.run (f.write dir) = (.ok (), t') := by
  obtain ⟨parent, hb⟩ := Path.exists_below hd hf
  have hplace : (dir.join f.path).place = f.place dir := hb.place_eq
  have hway : ∀ y, y ∈ parent.way ↔ f.Passes dir y := fun y => hb.mem_way_iff
  have hjoin := hb.fits_iff.2 hfits
  obtain ⟨t₁, hmake⟩ := FileTree.exists_makeDirectories (hb.parent_fits hjoin)
    fun y hy => hpass y ((hway y).1 hy)
  obtain ⟨-, -, hnode₁⟩ := FileTree.makeDirectories_eq_ok hmake
  have hlocate : t₁.locate (dir.join f.path) = .ok (dir.join f.path).place := by
    refine FileTree.locate_eq_ok.2 ⟨hjoin, fun y hy => ?_, rfl⟩
    rw [hnode₁, if_pos (hb.mem_passed_iff.1 hy)]
  have hfree₁ : t₁.node? (dir.join f.path).place ≠ some .directory := by
    rwa [hplace, hnode₁, if_neg fun hm => hnot ((hway _).1 hm)]
  obtain ⟨t', hwrite⟩ := FileTree.exists_write hlocate hfree₁ f.text
  refine ⟨t', ?_⟩
  unfold OutputFile.write
  simp only [hb.parent_eq, FileTree.run_bind_eq_ok]
  exact ⟨(), t₁, hmake, hwrite⟩

end OutputFile

/-! ## All files -/

/-- Files written one after the other. -/
def writeAll (files : List OutputFile) (dir : Path) : RunAction Unit :=
  files.forM fun f => (f.write dir).orFail (.writing f.path)

section WriteAll

variable {t t' : FileTree} {files : List OutputFile} {dir : Path} {y : Location}

theorem writeAll_cons (f : OutputFile) (files : List OutputFile) (dir : Path) :
    writeAll (f :: files) dir =
      (f.write dir).orFail (.writing f.path) >>= fun _ => writeAll files dir := rfl

theorem carryOut_eq (plan : Plan) (dir keep : Path) :
    plan.carryOut dir keep = resetDirectory dir keep >>= fun _ => writeAll plan.files dir := rfl

/-- What was there keeps its kind when files are written, even when that fails. -/
theorem keepsKinds_writeAll {r : Except RunError Unit}
    (h : t.run (writeAll files dir) = (r, t')) : KeepsKinds t t' := by
  induction files generalizing t with
  | nil =>
    cases h
    exact KeepsKinds.refl _
  | cons f files ih =>
    rw [writeAll_cons, FileTree.run_bind, FileTree.run_orFail] at h
    rcases hwrite : t.run (f.write dir) with ⟨e | u, t₁⟩
    · rw [hwrite] at h
      cases h
      exact OutputFile.keepsKinds_write hwrite
    · rw [hwrite] at h
      exact (OutputFile.keepsKinds_write hwrite).trans (ih h)

/-- What the writing of files into a directory leaves in a tree. -/
structure Written (files : List OutputFile) (dir : Path) (t t' : FileTree) : Prop where
  fits : ∀ f ∈ files, f.path.Fits
  file : ∀ f ∈ files, ∃ g ∈ files, g.place dir = f.place dir ∧
    t'.node? (f.place dir) = some (.file g.text)
  directory : ∀ f ∈ files, ∀ y, f.Passes dir y → t'.node? y = some .directory
  other : ∀ y, (∀ f ∈ files, f.place dir ≠ y ∧ ¬f.Passes dir y) → t'.node? y = t.node? y

/-- **After the writing each place holds a file listed for it**, all directories needed are there,
    and all else is as before. -/
theorem writeAll_eq_ok (hd : dir.IsRooted) (hplain : ∀ f ∈ files, f.path.IsPlain)
    (h : t.run (writeAll files dir) = (.ok (), t')) : Written files dir t t' := by
  induction files generalizing t with
  | nil =>
    cases h
    exact ⟨by simp, by simp, by simp, fun y _ => rfl⟩
  | cons f files ih =>
    rw [writeAll_cons, FileTree.run_bind_eq_ok] at h
    obtain ⟨⟨⟩, t₁, hwrite, h⟩ := h
    obtain ⟨hfits, -, -, -, hplace, hdirs, hother⟩ :=
      OutputFile.write_eq_ok hd (hplain f (by simp)) (FileTree.run_orFail_eq_ok.1 hwrite)
    have hkinds := keepsKinds_writeAll h
    obtain ⟨hfits', hfile', hdirs', hother'⟩ := ih (fun g hg => hplain g (by simp [hg])) h
    refine ⟨?_, fun g hg => ?_, fun g hg y hy => ?_, fun y hy => ?_⟩
    · simpa [hfits.2] using hfits'
    · by_cases hlater : ∃ k ∈ files, k.place dir = g.place dir
      · obtain ⟨k, hk, heq⟩ := hlater
        obtain ⟨l, hl, hlk, hnode⟩ := hfile' k hk
        exact ⟨l, by simp [hl], hlk.trans heq, heq ▸ hnode⟩
      · -- Nothing that is written later needs a directory where this file is.
        have hgf : g = f := by
          rcases List.mem_cons.1 hg with rfl | hg
          · rfl
          · exact absurd ⟨g, hg, rfl⟩ hlater
        subst hgf
        have hnot : ∀ k ∈ files, k.place dir ≠ g.place dir ∧ ¬k.Passes dir (g.place dir) := by
          intro k hk
          refine ⟨fun heq => hlater ⟨k, hk, heq⟩, fun hpass => ?_⟩
          obtain ⟨kept, hkept⟩ := hkinds.file _ _ hplace
          rw [hdirs' k hk _ hpass] at hkept
          cases hkept
        exact ⟨g, by simp, rfl, by rw [hother' _ hnot, hplace]⟩
    · rcases List.mem_cons.1 hg with rfl | hg
      · exact hkinds.directory y (hdirs y hy)
      · exact hdirs' g hg y hy
    · obtain ⟨hne, hpass⟩ := hy f (by simp)
      rw [hother' y fun g hg => hy g (by simp [hg]), hother y hne.symm hpass]

/-- No file is to be where another needs a directory, or where the path of the directory that they
    go to passes. -/
def Apart (files : List OutputFile) (dir : Path) : Prop :=
  ∀ f ∈ files, f.place dir ∉ dir.way ∧ ∀ g ∈ files, f.names <+: g.names → f.names = g.names

instance (files : List OutputFile) (dir : Path) : Decidable (Apart files dir) :=
  inferInstanceAs (Decidable (∀ f ∈ files, _ ∧ ∀ g ∈ files, _))

theorem apart_iff :
    Apart files dir ↔ ∀ f ∈ files, ∀ g ∈ files, ¬g.Passes dir (f.place dir) := by
  simp only [OutputFile.passes_place_iff, not_or, not_and, not_not]
  constructor
  · intro h f hf g hg
    exact ⟨(h f hf).1, (h f hf).2 g hg⟩
  · intro h f hf
    exact ⟨(h f hf f hf).1, fun g hg => (h f hf g hg).2⟩

theorem Written.apart (h : Written files dir t t') : Apart files dir := by
  refine apart_iff.2 fun f hf g hg hpass => ?_
  obtain ⟨_, -, -, hfile⟩ := h.file f hf
  rw [h.directory g hg _ hpass] at hfile
  cases hfile

/-- Files that are apart can be written where nothing is in the way. -/
theorem exists_writeAll (hd : dir.IsRooted) (hfits : dir.Fits)
    (hfiles : ∀ f ∈ files, f.path.IsPlain ∧ f.path.Fits) (hapart : Apart files dir)
    (hpass : ∀ f ∈ files, ∀ y, f.Passes dir y → t.Passable y)
    (hfree : ∀ f ∈ files, t.node? (f.place dir) ≠ some .directory) :
    ∃ t', t.run (writeAll files dir) = (.ok (), t') := by
  rw [apart_iff] at hapart
  induction files generalizing t with
  | nil => exact ⟨t, rfl⟩
  | cons f files ih =>
    obtain ⟨hplain, hf⟩ := hfiles f (by simp)
    obtain ⟨t₁, hwrite⟩ := OutputFile.exists_write_of hd hplain ⟨hfits, hf⟩ (hpass f (by simp))
      (hapart f (by simp) f (by simp)) (hfree f (by simp))
    obtain ⟨-, -, -, -, hplace, hdirs, hother⟩ := OutputFile.write_eq_ok hd hplain hwrite
    have hpass₁ : ∀ g ∈ files, ∀ y, g.Passes dir y → t₁.Passable y := by
      intro g hg y hy
      by_cases hyf : y = f.place dir
      · exact absurd (hyf ▸ hy) (hapart f (by simp) g (by simp [hg]))
      · by_cases hyp : f.Passes dir y
        · exact FileTree.passable_of_directory (hdirs y hyp)
        · rw [FileTree.Passable, hother y hyf hyp]
          exact hpass g (by simp [hg]) y hy
    have hfree₁ : ∀ g ∈ files, t₁.node? (g.place dir) ≠ some .directory := by
      intro g hg
      by_cases hgf : g.place dir = f.place dir
      · simp [hgf, hplace]
      · rw [hother _ hgf (hapart g (by simp [hg]) f (by simp))]
        exact hfree g (by simp [hg])
    obtain ⟨t', h⟩ := ih (fun g hg => hfiles g (by simp [hg]))
      (fun g hg k hk => hapart g (by simp [hg]) k (by simp [hk])) hpass₁ hfree₁
    exact ⟨t', FileTree.run_bind_eq_ok.2 ⟨(), t₁, FileTree.run_orFail_eq_ok.2 hwrite, h⟩⟩

end WriteAll

/-! ## Runs -/

section Run

variable {t t' : FileTree} {s : Settings} {p : Project} {plan : Plan} {cwd manifest : Path}
  {e : RunError}

/-- **A run that is not dry carries out its plan** and reports it. -/
theorem run_generate_of_plan (h : s.plan p = .ok plan) (t : FileTree) (cwd manifest : Path) :
    t.run (s.generate p cwd manifest false) =
      t.run (plan.carryOut (s.destination.absoluteFrom cwd) (manifest.absoluteFrom cwd) >>=
        fun _ => pure (plan.written s.destination)) := by
  simp only [Settings.generate, h, Bool.false_eq_true, if_false]

theorem run_generate_of_ok (h : s.plan p = .ok plan)
    (hc : t.run (plan.carryOut (s.destination.absoluteFrom cwd) (manifest.absoluteFrom cwd)) =
      (.ok (), t')) :
    t.run (s.generate p cwd manifest false) = (.ok (plan.written s.destination), t') := by
  rw [run_generate_of_plan h, FileTree.run_bind, hc]
  rfl

theorem run_generate_of_error (h : s.plan p = .ok plan)
    (hc : t.run (plan.carryOut (s.destination.absoluteFrom cwd) (manifest.absoluteFrom cwd)) =
      (.error e, t')) :
    t.run (s.generate p cwd manifest false) = (.error e, t') := by
  rw [run_generate_of_plan h, FileTree.run_bind, hc]

end Run

end InterfaceGuards
