/-
  The paths of planned files.

  * `plan_isPlain`: below an absolute root all files of a plan go to paths of names.
  * `Settings.IsAbsolute`: settings with absolute paths; `isAbsolute_override`: those of a project
    in an absolute directory, whatever a command line puts in their place.
-/
import InterfaceGuards.CommandLine.Execution
import InterfaceGuards.Proofs.Unit.Generation

namespace InterfaceGuards

/-! ## Outputs -/

theorem Layout.exists_of_buildAll {l : Layout} {c : Catalog} {us : List SourceUnit}
    {g : Generation} (h : l.buildAll c us = .ok g) :
    ∀ made ∈ g.units, ∃ u, l.outFile u = .ok made.outFile := by
  intro made hmade
  obtain ⟨u, -, -, ws, hbuild⟩ := (buildAll_eq_ok_iff.1 h).exists_unit hmade
  exact ⟨u.path, outFile_of_build hbuild⟩

namespace Settings

variable {s : Settings} {p : Project} {plan : Plan}

theorem generation_eq_ok {g : Generation} (h : s.generation p = .ok g) :
    ∃ selects, s.layout.generate p.catalog selects = .ok g := by
  unfold generation at h
  rcases hs : s.selection with e | selection
  · rw [hs] at h
    cases h
  · rw [hs] at h
    rcases hg : s.layout.generate p.catalog selection.selects with e | made
    · simp only [hg] at h
      cases h
    · simp only [hg] at h
      cases h
      exact ⟨_, hg⟩

theorem tsconfigFiles_isPlain {files : List OutputFile} (h : s.tsconfigFiles = .ok files) :
    ∀ f ∈ files, f.path.IsPlain := by
  unfold tsconfigFiles at h
  rcases hbase : s.baseConfig with _ | base
  · rw [hbase] at h
    cases h
    simp
  · rw [hbase] at h
    obtain ⟨config, -, h⟩ := bind_eq_ok.1 h
    cases h
    have hplain : (⟨"tsconfig.json"⟩ : Path).IsPlain := by decide +kernel
    simpa using hplain

/-- **Below an absolute root all planned files have paths of names.** -/
theorem plan_isPlain (hroot : s.rootDir.isAbsolute) (h : s.plan p = .ok plan) :
    ∀ f ∈ plan.files, f.path.IsPlain := by
  obtain ⟨g, hg, h⟩ := bind_eq_ok.1 h
  rcases hconfigs : s.tsconfigFiles with e | configs
  · simp only [hconfigs] at h
    cases h
  · simp only [hconfigs] at h
    cases h
    obtain ⟨selects, hmade⟩ := generation_eq_ok hg
    intro f hf
    rcases List.mem_append.1 hf with hf | hf
    · obtain ⟨made, hm, rfl⟩ := List.mem_map.1 hf
      obtain ⟨u, hu⟩ := Layout.exists_of_buildAll hmade made hm
      exact Layout.outFile_isPlain (l := s.layout) hroot hu
    · exact tsconfigFiles_isPlain hconfigs f hf

end Settings

/-! ## Loaded manifests -/

theorem Project.isAbsolute_resolvePath {p : Project} (h : p.baseDir.isAbsolute) (path : Path) :
    (p.resolvePath path).isAbsolute := by
  unfold resolvePath Manifest.resolvePath
  split_ifs with hp
  · exact hp
  · exact Path.isAbsolute_join h path

/-- Settings all of whose paths are absolute. -/
structure Settings.IsAbsolute (s : Settings) : Prop where
  rootDir : s.rootDir.isAbsolute
  destination : s.destination.isAbsolute
  baseConfig : ∀ base, s.baseConfig = some base → base.isAbsolute
  references : ∀ reference ∈ s.references, reference.isAbsolute

/-- **The settings of a project in an absolute directory are absolute**, whatever a command line
    puts in their place. -/
theorem Settings.isAbsolute_override {p : Project} (h : p.baseDir.isAbsolute) (o : Overrides) :
    ((ofProject p).override p o).IsAbsolute := by
  have hresolve := Project.isAbsolute_resolvePath h
  refine ⟨?_, ?_, fun base hbase => ?_, fun reference href => ?_⟩
  · cases hroot : o.rootDir <;> simp only [override, hroot] <;> exact hresolve _
  · cases hout : o.output <;> simp only [override, hout] <;> exact hresolve _
  · rcases Option.or_eq_some_iff.1 hbase with hbase | ⟨-, hbase⟩ <;>
    · obtain ⟨path, -, rfl⟩ := Option.map_eq_some_iff.1 hbase
      exact hresolve path
  · simp only [override, replaceWith] at href
    split_ifs at href <;>
    · obtain ⟨path, -, rfl⟩ := List.mem_map.1 href
      exact hresolve path

end InterfaceGuards
