/-
  What a run does to the manifest that it was read from.

  * `Spares`: clearing a directory cannot remove a file.
  * `node?_resetDirectory_iff`: after a directory was to be cleared the file is as before exactly
    then.
  * `kept_writeAll`: what lies outside of a directory stays when files are written into it.
  * `manifest_stays_iff`: so a run leaves a manifest, unless the spelling of the two paths hides
    that it lies in the destination.
  * `manifest_removed`: such a spelling.
-/
import InterfaceGuards.Proofs.Run.Output
import InterfaceGuards.Proofs.Run.Plan
import InterfaceGuards.Proofs.Run.Reset

namespace InterfaceGuards

open FileTree (KeepsKinds Grows HasDirectory isInside makeDirectories)

variable {t t' : FileTree} {dir keep : Path} {y : Location} {text : String} {n : FileNode}

/-! ## Clearing -/

/-- Clearing a directory cannot remove a file: it is refused, the file does not lie in it, or no
    directory is there. -/
def Spares (t : FileTree) (dir keep : Path) : Prop :=
  keep.startsWith dir ∨ ¬dir.normalSteps <+: keep.normalSteps ∨ ¬t.HasDirectory dir

/-- A file below a directory that is cleared is gone. -/
theorem node?_of_cleared (hreset : t.run (resetDirectory dir keep) = (.ok (), t'))
    (hhas : t.HasDirectory dir) (hbelow : dir.place <+: y)
    (hfile : t.node? y = some (.file text)) : t'.node? y ≠ some (.file text) := by
  obtain ⟨-, -, -, hnode⟩ := resetDirectory_eq_ok hreset
  have hne : dir.place ≠ y := by
    intro heq
    rw [← heq, hhas.2] at hfile
    cases hfile
  have hgone : t.isPresent dir ∧ isInside dir.place y :=
    ⟨isPresent_of_hasDirectory hhas, FileTree.isInside_iff.2 ⟨hbelow, hne⟩⟩
  rw [hnode, if_pos hgone]
  split_ifs <;> simp

/-- A file that lies elsewhere stays. -/
theorem node?_of_elsewhere (hreset : t.run (resetDirectory dir keep) = (.ok (), t'))
    (hhas : t.HasDirectory dir) (hbelow : ¬dir.place <+: y)
    (hfile : t.node? y = some (.file text)) : t'.node? y = some (.file text) := by
  obtain ⟨-, -, -, hnode⟩ := resetDirectory_eq_ok hreset
  have hway : y ∉ dir.way := by
    intro hm
    have hdirs := (FileTree.locate_eq_ok.1 hhas.1).2.1
    rcases FileTree.mem_way_iff_dropLast.1 hm with hm | heq
    · rw [hdirs _ hm] at hfile
      cases hfile
    · exact hbelow (heq ▸ List.prefix_rfl)
  rw [hnode, if_neg hway, if_neg, hfile]
  rintro ⟨-, hin⟩
  exact hbelow (FileTree.isInside_iff.1 hin).1

/-- **After a directory was to be cleared a file is as before exactly if it was spared.** -/
theorem node?_resetDirectory_iff (hdir : dir.isAbsolute) (hkeep : keep.isAbsolute)
    (hfile : t.node? keep.place = some (.file text)) :
    (t.run (resetDirectory dir keep)).2.node? keep.place = some (.file text) ↔
      Spares t dir keep := by
  rcases hrun : t.run (resetDirectory dir keep) with ⟨r, t'⟩
  have hcleared (hstart : ¬keep.startsWith dir) (hhas : t.HasDirectory dir) :
      t.run (resetDirectory dir keep) = (.ok (), t') := by
    obtain ⟨t₁, hok⟩ := exists_resetDirectory hstart hhas
    rw [hrun] at hok
    cases hok
    exact hrun
  rw [Spares, Path.normalSteps_prefix_iff hdir hkeep]
  constructor
  · intro hafter
    by_contra hnot
    push Not at hnot
    obtain ⟨hstart, hbelow, hhas⟩ := hnot
    exact node?_of_cleared (hcleared hstart hhas) hhas hbelow hfile hafter
  · intro hspares
    rcases grows_or_cleared hrun with hgrows | ⟨hstart, hhas⟩
    · exact hgrows _ _ hfile
    · rcases hspares with h | hbelow | h
      · exact absurd h hstart
      · exact node?_of_elsewhere (hcleared hstart hhas) hhas hbelow hfile
      · exact absurd hhas h

/-! ## Writing -/

/-- What lies outside of a directory stays when a file is written into it, even when that fails. -/
theorem OutputFile.kept_write {f : OutputFile} {r : Except FileError Unit} (hd : dir.IsRooted)
    (hf : f.path.IsPlain) (h : t.run (f.write dir) = (r, t')) (hy : t.node? y = some n)
    (hout : ¬dir.place <+: y) : t'.node? y = some n := by
  obtain ⟨parent, hb⟩ := Path.exists_below hd hf
  unfold OutputFile.write at h
  simp only [hb.parent_eq, FileTree.run_bind] at h
  rcases hmake : t.run (makeDirectories parent) with ⟨e | u, t₁⟩
  · rw [hmake] at h
    cases h
    exact FileTree.grows_makeDirectories hmake y n hy
  · rw [hmake] at h
    have hy₁ := FileTree.grows_makeDirectories hmake y n hy
    cases r with
    | error e => rwa [FileTree.write_eq_error h]
    | ok =>
      obtain ⟨-, -, hnode⟩ := FileTree.write_eq_ok h
      rw [hnode, if_neg, hy₁]
      rintro rfl
      exact hout (hb.place_eq ▸ List.prefix_append ..)

/-- **What lies outside of a directory stays when files are written into it**, even when that
    fails. -/
theorem kept_writeAll {files : List OutputFile} {r : Except RunError Unit} (hd : dir.IsRooted)
    (hplain : ∀ f ∈ files, f.path.IsPlain) (h : t.run (writeAll files dir) = (r, t'))
    (hy : t.node? y = some n) (hout : ¬dir.place <+: y) : t'.node? y = some n := by
  induction files generalizing t with
  | nil =>
    cases h
    exact hy
  | cons f files ih =>
    rw [writeAll_cons, FileTree.run_bind, FileTree.run_orFail] at h
    have hf := hplain f (by simp)
    rcases hwrite : t.run (f.write dir) with ⟨e | u, t₁⟩
    · rw [hwrite] at h
      cases h
      exact OutputFile.kept_write hd hf hwrite hy hout
    · rw [hwrite] at h
      exact ih (fun g hg => hplain g (by simp [hg])) h
        (OutputFile.kept_write hd hf hwrite hy hout)

/-! ## Runs -/

variable {cwd manifest : Path} {s : Settings} {p : Project}

/-- A run ends before anything is changed, or carries out its plan. -/
theorem run_generate (t : FileTree) (s : Settings) (p : Project) (cwd manifest : Path)
    (dryRun : Bool) :
    (t.run (s.generate p cwd manifest dryRun)).2 = t ∨
      ∃ plan, s.plan p = .ok plan ∧ (t.run (s.generate p cwd manifest dryRun)).2 =
        (t.run (plan.carryOut (s.destination.absoluteFrom cwd) (manifest.absoluteFrom cwd))).2 := by
  rcases hplan : s.plan p with e | plan
  · left
    simp only [Settings.generate, hplan]
    rfl
  · cases dryRun with
    | true =>
      left
      simp only [Settings.generate, hplan]
      rfl
    | false =>
      refine .inr ⟨plan, rfl, ?_⟩
      rcases hc : t.run (plan.carryOut _ _) with ⟨e | u, t'⟩
      · rw [run_generate_of_error hplan hc]
      · rw [run_generate_of_ok hplan hc]

/-- A file that is spared is there after a plan was carried out, and as it was if it lies outside of
    the directory and the plan stays inside. -/
theorem kept_carryOut (plan : Plan) (hdir : dir.IsRooted) (hkeep : keep.isAbsolute)
    (hfile : t.node? keep.place = some (.file text)) (hspares : Spares t dir keep) :
    ∃ kept, (t.run (plan.carryOut dir keep)).2.node? keep.place = some (.file kept) ∧
      ((∀ f ∈ plan.files, f.path.IsPlain) → ¬dir.normalSteps <+: keep.normalSteps →
        kept = text) := by
  have hreset := (node?_resetDirectory_iff hdir.isAbsolute hkeep hfile).2 hspares
  rw [carryOut_eq, FileTree.run_bind]
  rcases hrun : t.run (resetDirectory dir keep) with ⟨e | u, t₁⟩
  · rw [hrun] at hreset
    exact ⟨text, hreset, fun _ _ => rfl⟩
  · rw [hrun] at hreset
    rcases hwrite : t₁.run (writeAll plan.files dir) with ⟨r, t'⟩
    obtain ⟨kept, hkept⟩ := (keepsKinds_writeAll hwrite).file _ _ hreset
    refine ⟨kept, ?_, fun hplain hout => ?_⟩
    · simp only [hwrite]
      exact hkept
    · have hsame := kept_writeAll hdir hplain hwrite hreset
        fun h => hout ((Path.normalSteps_prefix_iff hdir.isAbsolute hkeep).2 h)
      rw [hsame] at hkept
      cases hkept
      rfl

/-- **A run leaves the manifest that it was read from, unless spelling hides that it lies in the
    destination.**  A destination that the manifest is spelled below is refused; where the two paths
    part plainly, being spelled below is being below.  Clearing the destination leaves the manifest
    as it is exactly if it is spared, and then there is a manifest after every run. -/
theorem manifest_stays_iff (s : Settings) (p : Project) (hcwd : cwd.isAbsolute)
    (hread : t.read (cwd.join manifest) = .ok text) :
    let dir := s.destination.absoluteFrom cwd
    let keep := manifest.absoluteFrom cwd
    (keep.startsWith dir →
      t.run (resetDirectory dir keep) = (.error (.holdsManifest dir keep), t)) ∧
    (dir.PartsPlainly keep → (keep.startsWith dir ↔ dir.normalSteps <+: keep.normalSteps)) ∧
    ((t.run (resetDirectory dir keep)).2.node? keep.place = some (.file text) ↔
      Spares t dir keep) ∧
    (Spares t dir keep → ∀ dryRun, ∃ kept,
      (t.run (s.generate p cwd manifest dryRun)).2.node? keep.place = some (.file kept) ∧
        (s.rootDir.isAbsolute → ¬dir.normalSteps <+: keep.normalSteps → kept = text)) := by
  intro dir keep
  have hdir := Path.isAbsolute_absoluteFrom hcwd s.destination
  have hkeep := Path.isAbsolute_absoluteFrom hcwd manifest
  have hfile : t.node? keep.place = some (.file text) := by
    rw [Path.place_absoluteFrom hcwd manifest]
    exact (FileTree.read_eq_ok.1 hread).2
  refine ⟨resetDirectory_of_startsWith, Path.startsWith_iff_of_partsPlainly hdir hkeep,
    node?_resetDirectory_iff hdir hkeep hfile, fun hspares dryRun => ?_⟩
  rcases run_generate t s p cwd manifest dryRun with hsame | ⟨plan, hplan, hcarried⟩
  · rw [hsame]
    exact ⟨text, hfile, fun _ _ => rfl⟩
  · obtain ⟨kept, hkept, htext⟩ :=
      kept_carryOut plan (Path.isRooted_absoluteFrom hcwd _) hkeep hfile hspares
    rw [hcarried]
    exact ⟨kept, hkept, fun hroot => htext (Settings.plan_isPlain hroot hplan)⟩

/-- A manifest beside its destination stays as it is. -/
theorem manifest_stays_beside :
    let t : FileTree := ⟨[(["p"], .directory), (["p", "shapes.toml"], .file ""),
      (["p", "schema"], .directory)]⟩
    let p : Project := ⟨⟨Manifest.noSettings, []⟩, ⟨"/p"⟩, ⟨[]⟩⟩
    (t.run ((Settings.ofProject p).generate p ⟨"/p"⟩ ⟨"shapes.toml"⟩ false)).2.node?
      (Path.absoluteFrom ⟨"shapes.toml"⟩ ⟨"/p"⟩).place = some (.file "") := by
  intro t p
  have hcwd : (⟨"/p"⟩ : Path).isAbsolute := by decide
  have hread : t.read (Path.join ⟨"/p"⟩ ⟨"shapes.toml"⟩) = .ok "" := by decide +kernel
  have hout : ¬((Settings.ofProject p).destination.absoluteFrom ⟨"/p"⟩).normalSteps <+:
      (Path.absoluteFrom ⟨"shapes.toml"⟩ ⟨"/p"⟩).normalSteps := by decide +kernel
  obtain ⟨-, -, -, hstays⟩ := manifest_stays_iff (Settings.ofProject p) p hcwd hread
  obtain ⟨kept, hkept, htext⟩ := hstays (.inr (.inl hout)) false
  have hroot : (Settings.ofProject p).rootDir.isAbsolute := by decide +kernel
  rw [hkept, htext hroot hout]

/-- **A manifest that is removed**: `../app` is the directory that the manifest lies in, but no path
    that it is spelled below. -/
theorem manifest_removed :
    let t : FileTree := ⟨[(["p"], .directory), (["p", "app"], .directory),
      (["p", "app", "shapes.toml"], .file ""), (["p", "app", "old.ts"], .file "old")]⟩
    let arguments := ["generate", "-m", "app/shapes.toml", "-o", "../app"]
    let after := CommandLine.execute arguments ⟨"/p"⟩ t
    (Path.mk "/p/app/../app").normalSteps <+: (Path.mk "/p/app/shapes.toml").normalSteps ∧
      t.node? ["p", "app", "shapes.toml"] = some (.file "") ∧
      after.1.map (·.output) = .ok "Generated: /p/app/../app\nUnits: 0\nFiles (0):\n" ∧
      after.2.node? ["p", "app", "shapes.toml"] = none := by
  decide +kernel

end InterfaceGuards
