/-
  What a run refers to.

  * `Tsconfig.exists_ofPaths`: a compiler configuration whose paths lead where they are to.
  * `Project.references_lead_home`: so do all that a run of a project writes.
-/
import InterfaceGuards.Proofs.Manifest.Load
import InterfaceGuards.Proofs.Run.Plan

namespace InterfaceGuards

open InterfaceGuards.Path (Leads)

variable {baseDir : Path} {p : Project}

theorem Project.baseDir_of_load {text : String} (h : load text baseDir = .ok p) :
    p.baseDir = baseDir := by
  obtain ⟨m, -, hm⟩ := load_eq_ok.1 h
  obtain ⟨-, us, -, rfl⟩ := Manifest.toProject_eq_ok.1 hm
  rfl

/-- The units of a project in an absolute directory have absolute paths. -/
theorem Project.isAbsolute_path {text : String} (h : baseDir.isAbsolute)
    (hload : load text baseDir = .ok p) {u : SourceUnit} (hu : u ∈ p.catalog.units) :
    u.path.isAbsolute := by
  obtain ⟨m, -, hm⟩ := load_eq_ok.1 hload
  obtain ⟨-, us, hus, rfl⟩ := Manifest.toProject_eq_ok.1 hm
  obtain ⟨e, -, hread⟩ := exists_of_mem_mapM hus u hu
  obtain ⟨is, -, hread⟩ := bind_eq_ok.1 hread
  obtain ⟨cs, -, hread⟩ := bind_eq_ok.1 hread
  obtain ⟨as, -, hread⟩ := bind_eq_ok.1 hread
  have hpath : u.path = Manifest.resolvePath baseDir ⟨e.path.value⟩ := by
    cases hread
    rfl
  have habs := isAbsolute_resolvePath (p := ⟨m, baseDir, ⟨us⟩⟩) h ⟨e.path.value⟩
  rwa [hpath]

/-! ## Compiler configurations -/

namespace Tsconfig

variable {destination base : Path} {references : List Path}

theorem exists_relative {target : Path} (hd : destination.isAbsolute) (ht : target.isAbsolute) :
    ∃ text, relative destination target = .ok text ∧ Leads text destination target := by
  rw [relative, Path.relativeTo?_of_isAbsolute hd ht]
  exact ⟨_, rfl, Path.leads_slashed hd ht⟩

theorem exists_mapM_relative (hd : destination.isAbsolute)
    (hr : ∀ reference ∈ references, reference.isAbsolute) :
    ∃ texts, references.mapM (relative destination) = .ok texts ∧
      List.Forall₂ (fun text reference => Leads text destination reference) texts references := by
  induction references with
  | nil => exact ⟨[], rfl, .nil⟩
  | cons reference references ih =>
    obtain ⟨hfirst, hrest⟩ := List.forall_mem_cons.1 hr
    obtain ⟨text, htext, hleads⟩ := exists_relative hd hfirst
    obtain ⟨texts, htexts, hall⟩ := ih hrest
    refine ⟨text :: texts, ?_, .cons hleads hall⟩
    rw [List.mapM_cons, htext, htexts]
    rfl

/-- **A configuration is made whose paths lead where they are to**, where all paths are absolute. -/
theorem exists_ofPaths (hd : destination.isAbsolute) (hb : base.isAbsolute)
    (hr : ∀ reference ∈ references, reference.isAbsolute) :
    ∃ config, ofPaths destination base references = .ok config ∧
      Leads config.base destination base ∧
      List.Forall₂ (fun text reference => Leads text destination reference) config.references
        references := by
  obtain ⟨text, htext, hleads⟩ := exists_relative hd hb
  obtain ⟨texts, htexts, hall⟩ := exists_mapM_relative hd hr
  refine ⟨⟨text, texts⟩, ?_, hleads, hall⟩
  rw [ofPaths, htext, htexts]
  rfl

end Tsconfig

/-! ## Runs -/

/-- What fails for several units fails for one of them. -/
theorem Layout.exists_of_buildAll_error {l : Layout} {c : Catalog} {us : List SourceUnit}
    {e : GenerateError} (h : l.buildAll c us = .error e) : ∃ u ∈ us, l.build c u = .error e := by
  obtain ⟨before, u, after, rfl, -, hbuild⟩ := buildAll_eq_error_iff.1 h
  exact ⟨u, by simp, hbuild⟩

namespace Settings

variable {s : Settings} {e : RunError}

theorem exists_of_generation_error (h : s.generation p = .error e) :
    (∃ source, e = .pattern source) ∨ ∃ u ∈ p.catalog.units, ∃ source,
      s.layout.build p.catalog u = .error source ∧ e = .generation source := by
  unfold generation at h
  split at h
  · cases h
    exact .inl ⟨_, rfl⟩
  · split at h
    · rename_i herror
      cases h
      obtain ⟨u, hu, hbuild⟩ := Layout.exists_of_buildAll_error herror
      exact .inr ⟨u, List.mem_of_mem_filter hu, _, hbuild, rfl⟩
    · cases h

theorem exists_tsconfigFiles (hs : s.IsAbsolute) : ∃ files, s.tsconfigFiles = .ok files := by
  unfold tsconfigFiles
  cases hbase : s.baseConfig with
  | none => exact ⟨[], rfl⟩
  | some base =>
    obtain ⟨config, hconfig, -⟩ :=
      Tsconfig.exists_ofPaths hs.destination (hs.baseConfig base hbase) hs.references
    simp only [hconfig]
    exact ⟨_, rfl⟩

/-- A plan fails for a pattern or for one of the units, but not for its configuration, where all
    paths are absolute. -/
theorem exists_of_plan_error (hs : s.IsAbsolute) (h : s.plan p = .error e) :
    (∃ source, e = .pattern source) ∨ ∃ u ∈ p.catalog.units, ∃ source,
      s.layout.build p.catalog u = .error source ∧ e = .generation source := by
  obtain ⟨files, hfiles⟩ := exists_tsconfigFiles hs
  rcases bind_eq_error.1 h with h | ⟨g, -, h⟩
  · exact exists_of_generation_error h
  · simp only [hfiles] at h
    cases h

end Settings

/-- **Every reference of a project leads home.**  In an absolute directory no run fails because of
    unrelated paths, whatever a command line says; the output of every unit imports it; and the
    paths of the compiler configuration lead from the destination where they are to. -/
theorem Project.references_lead_home {text : String} (hbase : baseDir.isAbsolute)
    (hload : load text baseDir = .ok p) (o : Overrides) :
    let s := (Settings.ofProject p).override p o
    (∀ e, s.plan p = .error e →
      (∀ source target, e ≠ .generation (.unrelatedPaths source target)) ∧
        ∀ unrelated, e ≠ .tsconfig unrelated) ∧
    (∀ u ∈ p.catalog.units,
      (∀ source target, s.layout.build p.catalog u ≠ .error (.unrelatedPaths source target)) ∧
      ∀ g ws, s.layout.build p.catalog u = .ok (g, ws) → g.LeadsHome u s.destination) ∧
    ∀ base, s.baseConfig = some base →
      ∃ config, Tsconfig.ofPaths s.destination base s.references = .ok config ∧
        Leads config.base s.destination base ∧
        List.Forall₂ (fun text reference => Leads text s.destination reference) config.references
          s.references := by
  intro s
  have hs : s.IsAbsolute := by
    refine Settings.isAbsolute_override ?_ o
    rwa [baseDir_of_load hload]
  have hrelated : ∀ u ∈ p.catalog.units, ∀ source target,
      s.layout.build p.catalog u ≠ .error (.unrelatedPaths source target) :=
    fun u hu source target =>
      Layout.build_ne_unrelatedPaths (l := s.layout) hs.destination (isAbsolute_path hbase hload hu)
  refine ⟨fun e he => ?_, fun u hu => ⟨hrelated u hu, fun g ws h => ?_⟩, fun base hb => ?_⟩
  · rcases Settings.exists_of_plan_error hs he with ⟨_, rfl⟩ | ⟨u, hu, source, hbuild, rfl⟩
    · exact ⟨nofun, nofun⟩
    · refine ⟨fun a b hab => ?_, nofun⟩
      cases hab
      exact hrelated u hu a b hbuild
  · exact Layout.leadsHome_of_build (l := s.layout) hs.rootDir hs.destination
      (isAbsolute_path hbase hload hu) h
  · exact Tsconfig.exists_ofPaths hs.destination (hs.baseConfig base hb) hs.references

/-- A manifest with a unit below its root, which refers to a configuration and to a project. -/
def nestedManifest : String :=
  "generator=\x7broot-dir='src',extends='t.json',references=['q']\x7d\n" ++
    "units=[\x7bpath='src/m/a.ts',interfaces=[\x7bname='A'\x7d]\x7d]"

/-- The unit of the manifest in the directory `/p`. -/
def nestedUnit : SourceUnit := ⟨⟨"/p/src/m/a.ts"⟩, [⟨"A", .interfaceType, [], []⟩]⟩

/-- The project of the manifest there. -/
def nestedProject : Project :=
  ⟨⟨⟨some ⟨"src"⟩, none, none, some ⟨"t.json"⟩, [⟨"q"⟩], [], []⟩,
    [⟨⟨"src/m/a.ts", ⟨74, 86⟩⟩, [⟨⟨"A", ⟨105, 108⟩⟩, [], []⟩], [], []⟩]⟩, ⟨"/p"⟩, ⟨[nestedUnit]⟩⟩

theorem load_nestedManifest : Project.load nestedManifest ⟨"/p"⟩ = .ok nestedProject := by
  have hread : (Toml.parse? nestedManifest).bind Manifest.ofToml? =
      some nestedProject.manifest := by
    decide +kernel
  exact Project.load_eq_ok.2 ⟨nestedProject.manifest, hread, rfl⟩

/-- The output goes to `/gen/m/a.ts`, as a command line asks for: the unit, the configuration and
    the project are found from there. -/
theorem references_lead_home_nested :
    let s := (Settings.ofProject nestedProject).override nestedProject
      { output := some ⟨"../gen/."⟩ }
    (⟨"/p"⟩ : Path).isAbsolute ∧ Project.load nestedManifest ⟨"/p"⟩ = .ok nestedProject ∧
    (∃ g ws, s.layout.build nestedProject.catalog nestedUnit = .ok (g, ws) ∧
      g.script.imports = [⟨"../../p/src/m/a", ["A"]⟩] ∧ g.LeadsHome nestedUnit s.destination) ∧
    Tsconfig.ofPaths s.destination ⟨"/p/t.json"⟩ s.references =
      .ok ⟨"../p/t.json", ["../p/q"]⟩ ∧
    Leads "../p/t.json" s.destination ⟨"/p/t.json"⟩ := by
  intro s
  have hbase : (⟨"/p"⟩ : Path).isAbsolute := by decide
  obtain ⟨-, hunits, hconfig⟩ := Project.references_lead_home hbase load_nestedManifest
    { output := some ⟨"../gen/."⟩ }
  have hbuilt : (s.layout.build nestedProject.catalog nestedUnit).toOption.map
      (fun made => made.1.script.imports) = some [⟨"../../p/src/m/a", ["A"]⟩] := by
    decide +kernel
  have hwritten : Tsconfig.ofPaths s.destination ⟨"/p/t.json"⟩ s.references =
      .ok ⟨"../p/t.json", ["../p/q"]⟩ := by
    decide +kernel
  refine ⟨hbase, load_nestedManifest, ?_, hwritten, ?_⟩
  · cases hbuild : s.layout.build nestedProject.catalog nestedUnit with
    | error e => simp [hbuild, Except.toOption] at hbuilt
    | ok made =>
      obtain ⟨g, ws⟩ := made
      have himports : g.script.imports = [⟨"../../p/src/m/a", ["A"]⟩] := by
        simpa [hbuild, Except.toOption] using hbuilt
      exact ⟨g, ws, rfl, himports, (hunits nestedUnit (List.mem_singleton.2 rfl)).2 g ws hbuild⟩
  · obtain ⟨config, hmade, hleads, -⟩ := hconfig ⟨"/p/t.json"⟩ (by decide +kernel)
    rw [hwritten] at hmade
    cases hmade
    exact hleads

end InterfaceGuards
