/-
  What a check counts.

  * `UnitScript.functions`, `UnitScript.exported`: the functions that a script defines, and those of
    them that it exports: a factory and a guard for each interface.
  * `GeneratedUnit.Exports`: an output that consists of its imports and of such functions.
  * `Layout.isWarning_of_buildAll`: all findings of a generation are warnings.
  * `Catalog.interfacesAt`: the interfaces that are counted for a path: those of the first unit with
    its steps.
  * `Settings.check_counts_iff`: a check counts the outputs, and lists the warnings of a dry run; it
    counts the exported functions just when as many interfaces are found at the paths of the units
    as these have.
-/
import InterfaceGuards.Proofs.FileTree.Action
import InterfaceGuards.Proofs.Run.Plan
import InterfaceGuards.Proofs.Unit.Bracket
import InterfaceGuards.Proofs.Unit.TopLevel
import InterfaceGuards.Proofs.Unit.Warning

namespace InterfaceGuards

open Script (Check Function Helper functionsFor)

/-! ## Totals -/

/-- What a measure adds up to over a list. -/
def total {α : Type} (measure : α → Nat) (xs : List α) : Nat :=
  xs.foldr (fun x n => measure x + n) 0

theorem total_eq_of_forall₂ {α β : Type} {f : α → Nat} {f' : β → Nat} {xs : List α} {ys : List β}
    (h : List.Forall₂ (fun x y => f x = f' y) xs ys) : total f xs = total f' ys := by
  induction h with
  | nil => rfl
  | cons hfirst _ ih => exact congrArg₂ (· + ·) hfirst ih

theorem total_two_mul {α : Type} (f : α → Nat) (xs : List α) :
    total (fun x => 2 * f x) xs = 2 * total f xs := by
  induction xs with
  | nil => rfl
  | cons x xs ih => exact (congrArg (2 * f x + ·) ih).trans (Nat.mul_add 2 (f x) _).symm

theorem Script.length_functionsFor (names : List String) :
    (names.flatMap functionsFor).length = 2 * names.length := by
  induction names with
  | nil => rfl
  | cons n names ih =>
    rw [List.flatMap_cons, List.length_append, ih, List.length_cons, Nat.mul_succ, Nat.add_comm]
    rfl

/-! ## Functions of an output -/

namespace UnitScript

/-- The functions that a script defines, each with its body: the helpers, and then the factory and
    the guard of each interface. -/
def functions (s : UnitScript) : List (Function × Code) :=
  s.helpers.map (fun h => (h.function, h.body)) ++ s.interfaces.flatMap fun i =>
    [(i.factory, .line 0 "return " :: i.record.code ++ [.raw ";\n"]),
      (i.guard, Check.codeAll i.checks ++ Script.returnTrue)]

/-- Those that are exported. -/
def exported (s : UnitScript) : List Function := (s.functions.map Prod.fst).filter (·.exported)

/-- **A script consists of its imports and its functions.** -/
theorem code_eq_functions (s : UnitScript) :
    s.code = s.importCode ++ s.functions.flatMap fun f => f.1.code f.2 := by
  have hhelper : ∀ h : Helper, h.function.code h.body = h.code := fun _ => rfl
  have hinterface : ∀ i : InterfaceScript, [(i.factory, .line 0 "return " :: i.record.code ++
      [.raw ";\n"]), (i.guard, Check.codeAll i.checks ++ Script.returnTrue)].flatMap
        (fun f => f.1.code f.2) = i.code := fun i => by
    rw [List.flatMap_cons, List.flatMap_singleton]
    rfl
  simp only [code, importCode, functions, List.flatMap_append, List.flatMap_map,
    List.flatMap_assoc, hhelper, hinterface, List.append_assoc]

/-- **The exported functions** are the factories and the guards. -/
theorem exported_eq (s : UnitScript) :
    s.exported = s.interfaces.flatMap fun i => [i.factory, i.guard] := by
  have hhelpers : (s.helpers.map Helper.function).filter (·.exported) = [] := by
    rw [List.filter_eq_nil_iff]
    intro f hf
    obtain ⟨h, -, rfl⟩ := List.mem_map.1 hf
    cases h <;> decide
  have hinterface : ∀ i : InterfaceScript,
      [i.factory, i.guard].filter (·.exported) = [i.factory, i.guard] := fun _ => rfl
  simp only [exported, functions, List.map_append, List.map_map, Function.comp_def,
    List.filter_append, List.map_flatMap, List.map_cons, List.map_nil, List.filter_flatMap,
    hinterface]
  rw [hhelpers, List.nil_append]

end UnitScript

/-- The output of a unit: its imports, and functions one after another, of which those are exported
    that are the factories and guards of the interfaces of the unit. -/
structure GeneratedUnit.Exports (g : GeneratedUnit) (u : SourceUnit) (indent : Code.Indent) :
    Prop where
  source : g.source = u.path
  contents : g.contents =
    (g.script.importCode ++ g.script.functions.flatMap fun f => f.1.code f.2).text indent
  exported : g.script.exported.map (·.name) = (u.interfaces.map (·.name)).flatMap functionsFor

namespace GeneratedUnit.Exports

variable {g : GeneratedUnit} {u : SourceUnit} {indent : Code.Indent}

/-- There are two exported functions for each interface. -/
theorem length_exported (h : g.Exports u indent) :
    g.script.exported.length = 2 * u.interfaces.length := by
  rw [← List.length_map (·.name), h.exported, Script.length_functionsFor, List.length_map]

end GeneratedUnit.Exports

/-- **Every output exports a factory and a guard for each interface of its unit**, and nothing
    else. -/
theorem Layout.exports_of_build {l : Layout} {c : Catalog} {u : SourceUnit} {g : GeneratedUnit}
    {ws : List Diagnostic} (h : l.build c u = .ok (g, ws)) : g.Exports u l.indent := by
  obtain ⟨n, hmade, -, hcontents, -⟩ := build_eq_ok h
  obtain ⟨hinterfaces, -⟩ := Scope.interfaceScripts_eq_ok hmade
  refine ⟨source_of_build h, ?_, ?_⟩
  · rw [hcontents, UnitScript.code_eq_functions]
  · rw [UnitScript.exported_eq, ← hinterfaces, List.map_flatMap, List.map_map, List.flatMap_map]
    rfl

/-! ## Findings -/

theorem Expansion.Reports.isWarning {p : Purpose} {x : Expansion} {w : Diagnostic}
    (h : Reports p x w) : w.severity = .warning := by
  obtain ⟨_, _, _, _, _, -, -, -, rfl⟩ := h
  rfl

/-- **All findings of a generation are warnings.** -/
theorem Layout.isWarning_of_buildAll {l : Layout} {c : Catalog} {us : List SourceUnit}
    {made : Generation} (h : l.buildAll c us = .ok made) :
    ∀ d ∈ made.diagnostics, d.severity = .warning := by
  obtain ⟨-, findings, hfindings, hdiagnostics⟩ := buildAll_eq_ok_iff.1 h
  intro d hd
  rw [hdiagnostics, List.mem_flatten] at hd
  obtain ⟨ws, hws, hd⟩ := hd
  obtain ⟨u, -, g, hbuild⟩ := exists_of_mem_forall₂ hfindings hws
  obtain ⟨n, hmade, -, -, rfl⟩ := build_eq_ok hbuild
  obtain ⟨_, -, _, hreports⟩ := Scope.interfaceScripts_reports hmade d hd
  exact hreports.isWarning

/-! ## Units at a path -/

namespace Catalog

variable {c : Catalog} {u : SourceUnit}

/-- The number of interfaces of the first unit with the steps of a path. -/
def interfacesAt (c : Catalog) (path : Path) : Nat :=
  ((c.units.find? fun u => u.path.components == path.components).map (·.interfaces.length)).getD 0

theorem functionCount_eq (c : Catalog) (path : Path) :
    c.functionCount path = 2 * c.interfacesAt path := by
  unfold functionCount interfacesAt
  cases c.units.find? fun u => u.path.components == path.components <;> rfl

/-- A unit whose steps no other unit has is found at its path, or one with as many interfaces. -/
theorem interfacesAt_of_mem (hu : u ∈ c.units) (h : ∀ v ∈ c.units,
    v.path.components = u.path.components → v.interfaces.length = u.interfaces.length) :
    c.interfacesAt u.path = u.interfaces.length := by
  unfold interfacesAt
  cases hfind : c.units.find? fun v => v.path.components == u.path.components with
  | none =>
    rw [List.find?_eq_none] at hfind
    exact absurd (beq_self_eq_true _) (hfind u hu)
  | some v =>
    have hsteps := List.find?_some hfind
    rw [beq_iff_eq] at hsteps
    exact h v (List.mem_of_find?_eq_some hfind) hsteps

end Catalog

/-! ## Totals of outputs -/

section
variable {us : List SourceUnit} {gs : List GeneratedUnit} {indent : Code.Indent}
  (h : List.Forall₂ (fun u g => g.Exports u indent) us gs)
include h

theorem total_exported :
    total (·.script.exported.length) gs = 2 * total (·.interfaces.length) us := by
  rw [← total_two_mul]
  exact (total_eq_of_forall₂ (h.imp fun u g he => he.length_exported.symm)).symm

theorem total_interfacesAt (c : Catalog) :
    total (fun g => c.interfacesAt g.source) gs = total (c.interfacesAt ·.path) us := by
  refine (total_eq_of_forall₂ (h.imp fun u g he => ?_)).symm
  rw [he.source]

end

/-! ## Checks -/

namespace Settings

variable {s : Settings} {p : Project} {manifest : Path} {summary : CheckSummary}

/-- The outputs of a generation are those of some units of the project, in order. -/
theorem exports_of_generation {made : Generation} (h : s.generation p = .ok made) :
    ∃ us : List SourceUnit, us.Sublist p.catalog.units ∧
      List.Forall₂ (fun u g => g.Exports u s.layout.indent) us made.units := by
  obtain ⟨selects, hgenerate⟩ := generation_eq_ok h
  refine ⟨(p.catalog.eligibleUnits selects).filter (·.interfaces ≠ []),
    List.filter_sublist.trans List.filter_sublist,
    (Layout.buildAll_eq_ok_iff.1 hgenerate).units.imp ?_⟩
  rintro u g ⟨ws, hbuild⟩
  exact Layout.exports_of_build hbuild

theorem check_eq_ok (h : s.check p manifest = .ok summary) :
    ∃ made, s.generation p = .ok made ∧ summary.generatedCount = made.units.length ∧
      summary.functionCount = 2 * total (fun g => p.catalog.interfacesAt g.source) made.units ∧
      summary.warnings = made.diagnostics.map Diagnostic.twoLines ∧ summary.infos = [] := by
  obtain ⟨made, hmade, h⟩ := bind_eq_ok.1 h
  obtain ⟨selects, hgenerate⟩ := generation_eq_ok hmade
  have hwarnings := Layout.isWarning_of_buildAll hgenerate
  have hnone : made.diagnostics.filter (fun d => decide (d.severity = .info)) = [] := by
    rw [List.filter_eq_nil_iff]
    intro d hd
    rw [hwarnings d hd]
    decide
  have hall : made.diagnostics.filter (fun d => !decide (d.severity = .info)) =
      made.diagnostics := by
    rw [List.filter_eq_self]
    intro d hd
    rw [hwarnings d hd]
    decide
  simp only [List.partition_eq_filter_filter, Function.comp_def, hnone, hall] at h
  cases h
  refine ⟨made, hmade, rfl, ?_, rfl, rfl⟩
  simp only [Catalog.functionCount_eq]
  exact total_two_mul (fun g : GeneratedUnit => p.catalog.interfacesAt g.source) made.units

theorem plan_eq_ok {plan : Plan} (h : s.plan p = .ok plan) :
    ∃ made, s.generation p = .ok made ∧ plan.unitCount = made.units.length ∧
      plan.warnings = made.diagnostics.map Diagnostic.display := by
  obtain ⟨made, hmade, h⟩ := bind_eq_ok.1 h
  rcases hconfigs : s.tsconfigFiles with e | configs
  · simp only [hconfigs] at h
    cases h
  · simp only [hconfigs] at h
    cases h
    exact ⟨made, hmade, rfl, rfl⟩

/-- A dry run reports its plan. -/
theorem dryRun_eq_ok {t t' : FileTree} {cwd : Path} {report : Report}
    (h : t.run (s.generate p cwd manifest true) = (.ok report, t')) :
    ∃ plan, s.plan p = .ok plan ∧ report = plan.preview := by
  rcases hplan : s.plan p with e | plan
  · simp only [generate, hplan] at h
    cases h
  · simp only [generate, hplan] at h
    cases h
    exact ⟨plan, rfl, rfl⟩

/-- **What a check counts.**  It counts the outputs, each of which exports a factory and a guard for
    each interface of its unit, and lists the warnings of a dry run.  It counts the exported
    functions just when as many interfaces are found at the paths of these units as the units have;
    this is so if units with the same steps have equally many. -/
theorem check_counts_iff (h : s.check p manifest = .ok summary) :
    ∃ us made, s.generation p = .ok made ∧ us.Sublist p.catalog.units ∧
      List.Forall₂ (fun u g => g.Exports u s.layout.indent) us made.units ∧
      summary.generatedCount = made.units.length ∧
      (summary.functionCount = total (·.script.exported.length) made.units ↔
        total (p.catalog.interfacesAt ·.path) us = total (·.interfaces.length) us) ∧
      ((∀ u ∈ us, ∀ v ∈ p.catalog.units, v.path.components = u.path.components →
          v.interfaces.length = u.interfaces.length) →
        summary.functionCount = total (·.script.exported.length) made.units) ∧
      summary.warnings = made.diagnostics.map Diagnostic.twoLines ∧ summary.infos = [] ∧
      ∀ (t t' : FileTree) (cwd : Path) (report : Report),
        t.run (s.generate p cwd manifest true) = (.ok report, t') →
        ∃ plan, s.plan p = .ok plan ∧ report = plan.preview ∧
          plan.unitCount = summary.generatedCount ∧
          plan.warnings = made.diagnostics.map Diagnostic.display := by
  obtain ⟨made, hmade, hgenerated, hfunctions, hwarnings, hinfos⟩ := check_eq_ok h
  obtain ⟨us, hsub, hexports⟩ := exports_of_generation hmade
  have hiff : summary.functionCount = total (·.script.exported.length) made.units ↔
      total (p.catalog.interfacesAt ·.path) us = total (·.interfaces.length) us := by
    rw [hfunctions, total_interfacesAt hexports p.catalog, total_exported hexports]
    omega
  refine ⟨us, made, hmade, hsub, hexports, hgenerated, hiff, fun hsame => hiff.2 ?_, hwarnings,
    hinfos, fun t t' cwd report hrun => ?_⟩
  · have heach : ∀ u ∈ us, p.catalog.interfacesAt u.path = u.interfaces.length :=
      fun u hu => Catalog.interfacesAt_of_mem (hsub.subset hu) (hsame u hu)
    exact total_eq_of_forall₂ (List.forall₂_same.2 heach)
  · obtain ⟨plan, hplan, hreport⟩ := dryRun_eq_ok hrun
    obtain ⟨planned, hplanned, hcount, hlisted⟩ := plan_eq_ok hplan
    obtain rfl : made = planned := Except.ok.inj (hmade.symm.trans hplanned)
    exact ⟨plan, hplan, hreport, hcount.trans hgenerated.symm, hlisted⟩

/-- The functions of an output with warnings are counted. -/
theorem check_counts_node : Project.load nodeManifest ⟨""⟩ = .ok nodeProject ∧
    ∃ summary made, (ofProject nodeProject).check nodeProject ⟨"shapes.toml"⟩ = .ok summary ∧
      (ofProject nodeProject).generation nodeProject = .ok made ∧
      summary.generatedCount = made.units.length ∧ summary.functionCount = 2 ∧
      summary.functionCount = total (·.script.exported.length) made.units ∧
      summary.warnings.length = 2 ∧
      summary.warnings = made.diagnostics.map Diagnostic.twoLines := by
  have hchecked : ((ofProject nodeProject).check nodeProject ⟨"shapes.toml"⟩).map
      (fun summary => (summary.functionCount, summary.warnings.length)) = .ok (2, 2) := by
    decide +kernel
  obtain ⟨summary, h, hcounts⟩ := map_eq_ok.1 hchecked
  obtain ⟨hfunctions, hwarnings⟩ := Prod.mk.inj hcounts
  obtain ⟨us, made, hmade, hsub, -, hgenerated, -, hexact, hlisted, -⟩ := check_counts_iff h
  refine ⟨load_nodeManifest, summary, made, h, hmade, hgenerated, hfunctions, hexact ?_, hwarnings,
    hlisted⟩
  intro u hu v hv _
  obtain rfl := List.mem_singleton.1 (hsub.subset hu)
  obtain rfl := List.mem_singleton.1 hv
  rfl

/-! ## Two units at one path -/

/-- A manifest with two units whose paths are spelled differently, and take the same steps. -/
def twinManifest : String :=
  "units=[\x7bpath='a/b.ts',interfaces=[\x7bname='A'\x7d]\x7d," ++
    "\x7bpath='a//b.ts',interfaces=[\x7bname='B'\x7d,\x7bname='C'\x7d]\x7d]"

/-- The units of the manifest. -/
def twinSources : List SourceUnit :=
  [⟨⟨"a/b.ts"⟩, [⟨"A", .interfaceType, [], []⟩]⟩,
    ⟨⟨"a//b.ts"⟩, [⟨"B", .interfaceType, [], []⟩, ⟨"C", .interfaceType, [], []⟩]⟩]

/-- The project of the manifest, with the places at which names are written in it. -/
def twinProject : Project :=
  ⟨⟨Manifest.noSettings,
      [⟨⟨"a/b.ts", ⟨13, 21⟩⟩, [⟨⟨"A", ⟨40, 43⟩⟩, [], []⟩], [], []⟩,
        ⟨⟨"a//b.ts", ⟨53, 62⟩⟩, [⟨⟨"B", ⟨81, 84⟩⟩, [], []⟩, ⟨⟨"C", ⟨92, 95⟩⟩, [], []⟩], [], []⟩]⟩,
    ⟨""⟩, ⟨twinSources⟩⟩

/-- Six functions are exported by the outputs for these units, but a check counts four: for the
    second unit it counts those of the first. -/
theorem check_counts_twins : Project.load twinManifest ⟨""⟩ = .ok twinProject ∧
    ∃ summary made, (ofProject twinProject).check twinProject ⟨"shapes.toml"⟩ = .ok summary ∧
      (ofProject twinProject).generation twinProject = .ok made ∧
      total (·.script.exported.length) made.units = 6 ∧ summary.functionCount = 4 := by
  have hread : (Toml.parse? twinManifest).bind Manifest.ofToml? = some twinProject.manifest := by
    decide +kernel
  have hchecked : ((ofProject twinProject).check twinProject ⟨"shapes.toml"⟩).map
      (·.functionCount) = .ok 4 := by
    decide +kernel
  have hgenerated : ((ofProject twinProject).generation twinProject).map
      (fun made => total (·.script.exported.length) made.units) = .ok 6 := by
    decide +kernel
  obtain ⟨summary, hsummary, hcount⟩ := map_eq_ok.1 hchecked
  obtain ⟨made, hmade, htotal⟩ := map_eq_ok.1 hgenerated
  exact ⟨Project.load_eq_ok.2 ⟨twinProject.manifest, hread, rfl⟩, summary, made, hsummary, hmade,
    htotal, hcount⟩

end Settings

end InterfaceGuards
