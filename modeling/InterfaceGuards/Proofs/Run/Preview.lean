/-
  What a run leaves in its destination, and what a dry run shows of it.

  * `Plan.LeftIn`: a directory holds the files of a plan, each once under its path and with its
    text, and nothing else beside the directories for them.
  * `Plan.Replaces`: nothing that was in the directory is in the way of that.
  * `leftIn_iff`: after a plan was carried out its files are left so exactly if they have paths of
    their own and replace what was there.
  * `dryRun_shows_iff`: the same for a run and what the dry run shows.
  * `preview_betrayed`: a run that leaves more than the dry run shows.
-/
import InterfaceGuards.Proofs.Run.Output
import InterfaceGuards.Proofs.Run.Plan
import InterfaceGuards.Proofs.Run.Reset
import Mathlib.Data.List.Nodup

namespace InterfaceGuards

open FileTree (KeepsKinds isInside)

variable {t t' t₁ : FileTree} {dir keep : Path} {plan : Plan} {y : Location} {text : String}
  {n : FileNode}

/-- What a plan leaves in a directory: its files, each once under its path and with its text, and
    otherwise only directories that lead to them or that the path of the directory passes. -/
structure Plan.LeftIn (plan : Plan) (t : FileTree) (dir : Path) : Prop where
  plain : ∀ f ∈ plan.files, f.path.IsPlain
  once : (plan.files.map OutputFile.names).Nodup
  file : ∀ names text, t.node? (dir.place ++ names) = some (.file text) ↔
    ∃ f ∈ plan.files, f.names = names ∧ f.text = text
  directory : ∀ names, t.node? (dir.place ++ names) = some .directory →
    dir.place ++ names ∈ dir.way ∨ ∃ f ∈ plan.files, names <+: f.names

/-- Whatever was in a directory is cleared, or is where the plan has a file or a directory too. -/
def Plan.Replaces (plan : Plan) (t : FileTree) (dir : Path) : Prop :=
  t.isPresent dir ∨ ∀ names n, names ≠ [] → t.node? (dir.place ++ names) = some n →
    dir.place ++ names ∈ dir.way ∨ ∃ f ∈ plan.files, names <+: f.names

/-- A plan that was carried out was written after its directory had been cleared. -/
theorem carryOut_eq_ok (h : t.run (plan.carryOut dir keep) = (.ok (), t')) :
    ∃ t₁, t.run (resetDirectory dir keep) = (.ok (), t₁) ∧
      t₁.run (writeAll plan.files dir) = (.ok (), t') := by
  rw [carryOut_eq, FileTree.run_bind_eq_ok] at h
  obtain ⟨⟨⟩, t₁, hreset, hwrite⟩ := h
  exact ⟨t₁, hreset, hwrite⟩

/-- What is left where a plan has neither a file nor a directory, and where no directory of its
    destination is, was there before and not cleared. -/
theorem eq_of_not_planned (hreset : t.run (resetDirectory dir keep) = (.ok (), t₁))
    (hw : Written plan.files dir t₁ t') {names : List String}
    (hway : dir.place ++ names ∉ dir.way) (hnot : ∀ f ∈ plan.files, ¬names <+: f.names)
    (hn : t'.node? (dir.place ++ names) = some n) :
    ¬t.isPresent dir ∧ names ≠ [] ∧ t.node? (dir.place ++ names) = some n := by
  obtain ⟨-, -, -, hnode⟩ := resetDirectory_eq_ok hreset
  have hne := Path.ne_nil_of_not_mem_way hway
  have hother : ∀ f ∈ plan.files, f.place dir ≠ dir.place ++ names ∧
      ¬f.Passes dir (dir.place ++ names) := by
    intro f hf
    refine ⟨fun heq => hnot f hf ?_, ?_⟩
    · exact (List.append_cancel_left heq).symm ▸ List.prefix_rfl
    · rintro (hm | ⟨first, hfirst, -, heq⟩)
      · exact hway hm
      · exact hnot f hf (List.append_cancel_left heq ▸ hfirst)
  rw [hw.other _ hother, hnode, if_neg hway] at hn
  split_ifs at hn with hgone
  exact ⟨fun hp => hgone ⟨hp, FileTree.isInside_append.2 hne⟩, hne, hn⟩

/-- A plan whose files are left in its directory has replaced what was there: what had not been
    cleared is left too. -/
theorem replaces_of_leftIn (hreset : t.run (resetDirectory dir keep) = (.ok (), t₁))
    (hwrite : t₁.run (writeAll plan.files dir) = (.ok (), t')) (hleft : plan.LeftIn t' dir) :
    plan.Replaces t dir := by
  obtain ⟨-, -, -, hnode⟩ := resetDirectory_eq_ok hreset
  by_cases hp : t.isPresent dir
  · exact .inl hp
  · refine .inr fun names n _ hn => ?_
    by_cases hway : dir.place ++ names ∈ dir.way
    · exact .inl hway
    · have hn₁ : t₁.node? (dir.place ++ names) = some n := by simp [hnode, hway, hp, hn]
      have hkinds := keepsKinds_writeAll hwrite
      cases n with
      | directory => exact hleft.directory names (hkinds.directory _ hn₁)
      | file text =>
        obtain ⟨kept, hkept⟩ := hkinds.file _ _ hn₁
        obtain ⟨f, hf, rfl, -⟩ := (hleft.file names kept).1 hkept
        exact .inr ⟨f, hf, List.prefix_rfl⟩

/-- What is left when the files of a plan have replaced what was there is planned. -/
theorem planned_of_replaces (hreset : t.run (resetDirectory dir keep) = (.ok (), t₁))
    (hw : Written plan.files dir t₁ t') (hreplaces : plan.Replaces t dir) (names : List String)
    (hn : t'.node? (dir.place ++ names) = some n) :
    dir.place ++ names ∈ dir.way ∨ ∃ f ∈ plan.files, names <+: f.names := by
  by_contra hnot
  push Not at hnot
  obtain ⟨hway, hnames⟩ := hnot
  obtain ⟨hp, hne, hold⟩ := eq_of_not_planned hreset hw hway hnames hn
  rcases hreplaces.resolve_left hp names n hne hold with hm | ⟨f, hf, hbelow⟩
  · exact hway hm
  · exact hnames f hf hbelow

/-- **After a plan was carried out its files are left in the directory exactly if they have paths of
    names, each its own, and replace what was there.** -/
theorem leftIn_iff (hdir : dir.IsRooted) (h : t.run (plan.carryOut dir keep) = (.ok (), t')) :
    plan.LeftIn t' dir ↔ (∀ f ∈ plan.files, f.path.IsPlain) ∧
      (plan.files.map OutputFile.names).Nodup ∧ plan.Replaces t dir := by
  obtain ⟨t₁, hreset, hwrite⟩ := carryOut_eq_ok h
  constructor
  · exact fun hleft => ⟨hleft.plain, hleft.once, replaces_of_leftIn hreset hwrite hleft⟩
  · rintro ⟨hplain, honce, hreplaces⟩
    have hw := writeAll_eq_ok hdir hplain hwrite
    refine ⟨hplain, honce, fun names text => ⟨fun hn => ?_, ?_⟩,
      planned_of_replaces hreset hw hreplaces⟩
    · rcases planned_of_replaces hreset hw hreplaces names hn with hway | ⟨f, hf, hbelow⟩
      · obtain ⟨-, -, -, hnode⟩ := resetDirectory_eq_ok hreset
        have hdir₁ : t₁.node? (dir.place ++ names) = some .directory := by
          rw [hnode, if_pos hway]
        rw [(keepsKinds_writeAll hwrite).directory _ hdir₁] at hn
        cases hn
      · by_cases heq : names = f.names
        · obtain ⟨g, hg, hplace, hfile⟩ := hw.file f hf
          subst heq
          rw [OutputFile.place, hn] at hfile
          cases hfile
          exact ⟨g, hg, List.append_cancel_left hplace, rfl⟩
        · rw [hw.directory f hf _ (.inr ⟨names, hbelow, heq, rfl⟩)] at hn
          cases hn
    · rintro ⟨f, hf, rfl, rfl⟩
      obtain ⟨g, hg, hplace, hn⟩ := hw.file f hf
      have hgf : g = f := List.inj_on_of_nodup_map honce hg hf (List.append_cancel_left hplace)
      rwa [hgf] at hn

/-- **A dry run shows what a run leaves in the destination**, exactly if the paths that it shows are
    paths of names, each its own, and replace what was in the destination.  Below an absolute root,
    as a loaded manifest has it, they are paths of names, shown with slashes between. -/
theorem dryRun_shows_iff {s : Settings} {p : Project} {cwd manifest : Path} {report : Report}
    (hcwd : cwd.isAbsolute)
    (h : t.run (s.generate p cwd manifest false) = (.ok report, t')) :
    ∃ plan, s.plan p = .ok plan ∧ report = plan.written s.destination ∧
      (∀ u : FileTree, u.run (s.generate p cwd manifest true) = (.ok plan.preview, u)) ∧
      (s.rootDir.isAbsolute → ∀ f ∈ plan.files, f.path.IsPlain) ∧
      (∀ f ∈ plan.files, f.path.IsPlain → f.path.slashed = Text.joinWith "/" f.names) ∧
      (plan.LeftIn t' (s.destination.absoluteFrom cwd) ↔
        (∀ f ∈ plan.files, f.path.IsPlain) ∧ (plan.files.map OutputFile.names).Nodup ∧
          plan.Replaces t (s.destination.absoluteFrom cwd)) := by
  rcases hplan : s.plan p with e | plan
  · simp only [Settings.generate, hplan] at h
    cases h
  · rcases hcarried : t.run (plan.carryOut (s.destination.absoluteFrom cwd)
        (manifest.absoluteFrom cwd)) with ⟨e | u, t₁⟩
    · rw [run_generate_of_error hplan hcarried] at h
      cases h
    · rw [run_generate_of_ok hplan hcarried] at h
      cases h
      refine ⟨plan, rfl, rfl, fun u => ?_, fun hroot => Settings.plan_isPlain hroot hplan,
        fun f _ => Path.slashed_of_isPlain, ?_⟩
      · simp only [Settings.generate, hplan]
        rfl
      · exact leftIn_iff (Path.isRooted_absoluteFrom hcwd s.destination) hcarried

/-- A run into a directory that holds an old file leaves the one file that the dry run shows. -/
theorem dryRun_shows_cleared :
    let t : FileTree := ⟨[(["p"], .directory), (["p", "shapes.toml"], .file ""),
      (["p", "schema"], .directory), (["p", "schema", "old.ts"], .file "old")]⟩
    let p : Project := ⟨⟨Manifest.noSettings, []⟩, ⟨"/p"⟩,
      ⟨[⟨⟨"/p/a.ts"⟩, [⟨"A", .interfaceType, [], []⟩]⟩]⟩⟩
    let s := Settings.ofProject p
    ∃ plan, s.plan p = .ok plan ∧ plan.files.map OutputFile.names = [["a.ts"]] ∧
      plan.LeftIn (t.run (s.generate p ⟨"/p"⟩ ⟨"shapes.toml"⟩ false)).2
        (s.destination.absoluteFrom ⟨"/p"⟩) := by
  intro t p s
  have hcwd : (⟨"/p"⟩ : Path).isAbsolute := by decide
  have hok : (t.run (s.generate p ⟨"/p"⟩ ⟨"shapes.toml"⟩ false)).1.isOk := by decide +kernel
  have hpresent : t.isPresent (s.destination.absoluteFrom ⟨"/p"⟩) := by decide +kernel
  have hroot : s.rootDir.isAbsolute := by decide +kernel
  have hnames : (s.plan p).map (·.files.map OutputFile.names) = .ok [["a.ts"]] := by
    decide +kernel
  rcases hrun : t.run (s.generate p ⟨"/p"⟩ ⟨"shapes.toml"⟩ false) with ⟨r, t'⟩
  rw [hrun] at hok
  obtain ⟨report, rfl⟩ := exists_ok_of_isOk hok
  obtain ⟨plan, hplan, -, -, hplain, -, hleft⟩ := dryRun_shows_iff hcwd hrun
  rw [hplan] at hnames
  have hfiles : plan.files.map OutputFile.names = [["a.ts"]] := Except.ok.inj hnames
  exact ⟨plan, hplan, hfiles, hleft.2 ⟨hplain hroot, by simp [hfiles], .inl hpresent⟩⟩

/-- **A run that leaves more than the dry run shows**: the way to the destination leads through a
    directory that is only made then, so that nothing is cleared. -/
theorem preview_betrayed :
    let t : FileTree := ⟨[(["p"], .directory), (["p", "shapes.toml"], .file ""),
      (["p", "schema"], .directory), (["p", "schema", "old.ts"], .file "old")]⟩
    let arguments := ["generate", "-o", "new/../schema"]
    let after := CommandLine.execute arguments ⟨"/p"⟩ t
    let shown := CommandLine.execute (arguments ++ ["--dry-run"]) ⟨"/p"⟩ t
    shown.1.map (·.output) = .ok "── Summary ──\n0 files would be generated\n" ∧
      after.1.isOk ∧ after.2.node? ["p", "schema", "old.ts"] = some (.file "old") := by
  decide +kernel

end InterfaceGuards
