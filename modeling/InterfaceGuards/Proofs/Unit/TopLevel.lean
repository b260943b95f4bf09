/-
  The names bound at the top level of an output.

  * `UnitScript.topLevelNames`: the names imported, and those of the functions defined.
  * `NamesApart`: no interface is named as a helper or as a function made for an interface, and no
    guard is named as a helper.
  * `nodup_boundNames_iff`: then, and only then, no name is bound twice.
  * `Project.topLevel_distinct_iff`: so it is for every output of a project.
-/
import InterfaceGuards.Proofs.Factory.Unit
import InterfaceGuards.Proofs.Manifest.Distinct
import InterfaceGuards.Proofs.Unit.Generation
import Mathlib.Data.List.Nodup

namespace InterfaceGuards

open Script (Helper factoryName guardName)

namespace Script

/-! ## Names of functions -/

theorem factoryName_ne_id (n : String) (h : Helper) : factoryName n ≠ h.id := by
  cases h <;> simp [factoryName, Helper.id, ← String.toList_inj]

/-- A guard has the name of a helper only if its interface is named `UnknownObject`. -/
theorem guardName_eq_id_iff (n : String) (h : Helper) :
    guardName n = h.id ↔ n = "UnknownObject" ∧ h = .isUnknownObject := by
  constructor
  · intro hn
    by_cases he : n = "UnknownObject"
    · subst he
      exact ⟨rfl, Helper.id_injective hn.symm⟩
    · exact absurd hn.symm (Helper.id_ne_guardName he h)
  · rintro ⟨rfl, rfl⟩
    rfl

/-- The functions made for an interface. -/
def functionsFor (name : String) : List String := [factoryName name, guardName name]

/-- What is bound for some interfaces and helpers: the interfaces, the helpers, and the factory and
    the guard of each interface. -/
def boundNames (names : List String) (helpers : List Helper) : List String :=
  names ++ (helpers.map Helper.id ++ names.flatMap functionsFor)

/-- The names of interfaces and of the functions beside them do not meet. -/
structure NamesApart (names : List String) (emitted : List Helper) : Prop where
  /-- No interface is named as the factory or the guard of an interface. -/
  functions : ∀ n ∈ names, factoryName n ∉ names ∧ guardName n ∉ names
  /-- No interface is named as a helper. -/
  helpers : ∀ h ∈ emitted, h.id ∉ names
  /-- No guard is named as a helper. -/
  guards : .isUnknownObject ∈ emitted → "UnknownObject" ∉ names

variable {names : List String} {emitted : List Helper}

theorem mem_functions {f : String} :
    f ∈ names.flatMap functionsFor ↔ ∃ n ∈ names, f = factoryName n ∨ f = guardName n := by
  simp [functionsFor]

theorem nodup_functions (hn : names.Nodup) : (names.flatMap functionsFor).Nodup := by
  refine List.nodup_flatMap.2 ⟨fun n _ => ?_, hn.imp fun {n m} hne => ?_⟩
  · simpa [functionsFor] using factoryName_ne_guardName n n
  · intro f hf hf'
    simp only [functionsFor, List.mem_cons, List.not_mem_nil, or_false] at hf hf'
    rcases hf with rfl | rfl <;> rcases hf' with hf' | hf'
    · exact hne (factoryName_injective hf')
    · exact factoryName_ne_guardName _ _ hf'
    · exact factoryName_ne_guardName _ _ hf'.symm
    · exact hne (guardName_injective hf')

/-- **When no name is bound twice**, interfaces being named differently. -/
theorem nodup_boundNames_iff (hn : names.Nodup) (hh : emitted.Nodup) :
    (boundNames names emitted).Nodup ↔ NamesApart names emitted := by
  have hids : (emitted.map Helper.id).Nodup := hh.map fun _ _ => Helper.id_injective
  simp only [boundNames, List.nodup_append, hn, hids, nodup_functions hn, true_and]
  constructor
  · rintro ⟨helpers_functions, names_rest⟩
    refine ⟨fun n hname => ⟨fun hmem => ?_, fun hmem => ?_⟩, fun h hh hmem => ?_,
      fun hh hmem => ?_⟩
    · refine names_rest _ hmem _ (List.mem_append_right _ ?_) rfl
      exact mem_functions.2 ⟨n, hname, .inl rfl⟩
    · refine names_rest _ hmem _ (List.mem_append_right _ ?_) rfl
      exact mem_functions.2 ⟨n, hname, .inr rfl⟩
    · exact names_rest _ hmem _ (List.mem_append_left _ (List.mem_map_of_mem hh)) rfl
    · exact helpers_functions _ (List.mem_map_of_mem hh) _
        (mem_functions.2 ⟨_, hmem, .inr rfl⟩) rfl
  · rintro ⟨functions, helpers, guards⟩
    refine ⟨?_, ?_⟩
    · intro f hf f' hf' he
      obtain ⟨h, hh, rfl⟩ := List.mem_map.1 hf
      obtain ⟨n, hname, rfl | rfl⟩ := mem_functions.1 hf'
      · exact factoryName_ne_id n h he.symm
      · obtain ⟨rfl, rfl⟩ := (guardName_eq_id_iff n h).1 he.symm
        exact guards hh hname
    · rintro m hm f hf rfl
      rcases List.mem_append.1 hf with hf | hf
      · obtain ⟨h, hh, rfl⟩ := List.mem_map.1 hf
        exact helpers h hh hm
      · obtain ⟨n, hname, rfl | rfl⟩ := mem_functions.1 hf
        · exact (functions n hname).1 hm
        · exact (functions n hname).2 hm

end Script

/-! ## Outputs -/

/-- The names bound at the top level of a unit's script: those that are imported, those of the
    helpers, and those of the factories and guards. -/
def UnitScript.topLevelNames (s : UnitScript) : List String :=
  s.imports.flatMap (·.names) ++
    (s.helpers.map (·.function.name) ++
      s.interfaces.flatMap fun i => [i.factory.name, i.guard.name])

namespace Layout

variable {l : Layout} {c : Catalog} {u : SourceUnit} {g : GeneratedUnit} {ws : List Diagnostic}

/-- The names bound by an output are those bound for the interfaces of its unit. -/
theorem topLevelNames_of_build (h : l.build c u = .ok (g, ws)) (hu : u.interfaces ≠ [])
    (hn : (u.interfaces.map (·.name)).Nodup) :
    g.script.topLevelNames = Script.boundNames (u.interfaces.map (·.name)) g.script.helpers := by
  obtain ⟨specifier, -, himports⟩ := imports_of_build h hu
  obtain ⟨n, hmade, -⟩ := build_eq_ok h
  obtain ⟨hds, -⟩ := Scope.interfaceScripts_eq_ok hmade
  have hhelper : ∀ f : Helper, f.function.name = f.id := fun f => by cases f <;> rfl
  rw [Code.eraseDups_of_nodup hn] at himports
  rw [UnitScript.topLevelNames, Script.boundNames, himports, ← hds]
  simp [List.flatMap_map, hhelper, InterfaceScript.factory, InterfaceScript.guard,
    Script.functionsFor]

/-- **No name is bound twice** by an output whose names are apart, and only by such an output. -/
theorem nodup_topLevelNames_iff (h : l.build c u = .ok (g, ws)) (hu : u.interfaces ≠ [])
    (hn : (u.interfaces.map (·.name)).Nodup) :
    g.script.topLevelNames.Nodup ↔
      Script.NamesApart (u.interfaces.map (·.name)) g.script.helpers := by
  rw [topLevelNames_of_build h hu hn, Script.nodup_boundNames_iff hn]
  obtain ⟨n, -, -, hneeded, hhelpers⟩ := script_of_build h
  rw [hhelpers, hneeded, helpers_requirements]
  exact List.Nodup.filter _ (by decide)

end Layout

/-- **When no name is bound twice** at the top level of an output. -/
theorem Project.topLevel_distinct_iff {text : String} {baseDir : Path} {p : Project}
    (hp : Project.load text baseDir = .ok p) {l : Layout} {selects : Path → Bool}
    {made : Generation} (h : l.generate p.catalog selects = .ok made) {g : GeneratedUnit}
    (hg : g ∈ made.units) :
    ∃ u ∈ p.catalog.units, (∃ ws, l.build p.catalog u = .ok (g, ws)) ∧
      g.contents = g.script.code.text l.indent ∧
      (g.script.topLevelNames.Nodup ↔
        Script.NamesApart (u.interfaces.map (·.name)) g.script.helpers) := by
  obtain ⟨u, hu, hsome, ws, hbuild⟩ := (Layout.buildAll_eq_ok_iff.1 h).exists_unit hg
  obtain ⟨-, -, -, hcontents, -⟩ := Layout.build_eq_ok hbuild
  have hu : u ∈ p.catalog.units := List.mem_of_mem_filter hu
  have hn : (u.interfaces.map (·.name)).Nodup :=
    (Project.nodup_names hp hu).sublist (List.filter_sublist.map _)
  exact ⟨u, hu, ⟨ws, hbuild⟩, hcontents, Layout.nodup_topLevelNames_iff hbuild hsome hn⟩

/-- The output for an interface that refers to itself binds no name twice. -/
theorem Project.topLevel_distinct_node : Project.load nodeManifest ⟨""⟩ = .ok nodeProject ∧
    ∃ g ws, (⟨⟨""⟩, ⟨"out"⟩, .spaces 2⟩ : Layout).generate nodeProject.catalog (fun _ => true) =
      .ok ⟨[g], ws⟩ ∧ g.script.topLevelNames.Nodup := by
  have built : ((⟨⟨""⟩, ⟨"out"⟩, .spaces 2⟩ : Layout).build nodeProject.catalog
      nodeSource).isOk := by
    decide +kernel
  obtain ⟨⟨g, ws⟩, h⟩ := exists_ok_of_isOk built
  have made := Layout.generate_of_units (u := nodeSource) (fun _ => true) rfl (by decide)
    (List.cons_ne_nil nodeDeclaration []) h
  obtain ⟨u, hu, -, -, hiff⟩ :=
    Project.topLevel_distinct_iff load_nodeManifest made (List.mem_singleton.2 rfl)
  obtain rfl := List.mem_singleton.1 hu
  refine ⟨load_nodeManifest, g, ws, made, hiff.2 ⟨?_, ?_, ?_⟩⟩
  · intro n hn
    obtain rfl := List.mem_singleton.1 hn
    decide
  · intro f _
    cases f <;> decide
  · intro _
    decide

/-- A manifest with an interface whose guard has the name of a helper. -/
def unknownObjectManifest : String :=
  "units=[\x7bpath='a.ts',interfaces=[\x7bname='UnknownObject'\x7d]\x7d]"

/-- The interface of the manifest. -/
def unknownObjectDeclaration : Declaration := ⟨"UnknownObject", .interfaceType, [], []⟩

/-- The unit of the manifest. -/
def unknownObjectSource : SourceUnit := ⟨⟨"a.ts"⟩, [unknownObjectDeclaration]⟩

/-- The project of the manifest, with the places at which names are written in it. -/
def unknownObjectProject : Project :=
  ⟨⟨Manifest.noSettings, [⟨⟨"a.ts", ⟨13, 19⟩⟩, [⟨⟨"UnknownObject", ⟨38, 53⟩⟩, [], []⟩], [], []⟩]⟩,
    ⟨""⟩, ⟨[unknownObjectSource]⟩⟩

theorem load_unknownObjectManifest :
    Project.load unknownObjectManifest ⟨""⟩ = .ok unknownObjectProject := by
  have hread : (Toml.parse? unknownObjectManifest).bind Manifest.ofToml? =
      some unknownObjectProject.manifest := by
    decide +kernel
  exact Project.load_eq_ok.2 ⟨unknownObjectProject.manifest, hread, rfl⟩

/-- The output for an interface `UnknownObject` defines two functions `isUnknownObject`. -/
theorem isUnknownObject_bound_twice :
    Project.load unknownObjectManifest ⟨""⟩ = .ok unknownObjectProject ∧
      ∃ g ws, (⟨⟨"."⟩, ⟨"schema"⟩, .spaces 4⟩ : Layout).generate unknownObjectProject.catalog
          (fun _ => true) = .ok ⟨[g], ws⟩ ∧
        g.script.topLevelNames =
          ["UnknownObject", "isUnknownObject", "createUnknownObject", "isUnknownObject"] ∧
        ¬ g.script.topLevelNames.Nodup := by
  have built : ((⟨⟨"."⟩, ⟨"schema"⟩, .spaces 4⟩ : Layout).build unknownObjectProject.catalog
      unknownObjectSource).map (·.1.script.topLevelNames) =
        .ok ["UnknownObject", "isUnknownObject", "createUnknownObject", "isUnknownObject"] := by
    decide +kernel
  obtain ⟨⟨g, ws⟩, h, names⟩ := map_eq_ok.1 built
  have made := Layout.generate_of_units (u := unknownObjectSource) (fun _ => true) rfl (by decide)
    (List.cons_ne_nil unknownObjectDeclaration []) h
  refine ⟨load_unknownObjectManifest, g, ws, made, names, ?_⟩
  rw [names]
  decide

end InterfaceGuards
