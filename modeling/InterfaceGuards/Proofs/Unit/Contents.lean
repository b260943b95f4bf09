/-
  What the output for a unit holds.

  * `Scope.records_interfaceScripts`: the helpers noted are those that the guards call, and the
    guards that they call are guards of the unit.
  * `Layout.isEmpty_of_build`: an output is empty if its unit has no interface, and only then.
  * `GeneratedUnit.IsClosed`, `Layout.build_closed`: an output defines what it calls, and defines no
    helper that it does not call.
-/
import InterfaceGuards.Proofs.Guard.Unit
import InterfaceGuards.Proofs.Synthesis.Call
import InterfaceGuards.Proofs.Unit.Import

namespace InterfaceGuards

open Script (Check Helper Statement functionNames)

namespace Scope

variable {s : Scope} {d : Declaration} {n : Notes} {i : InterfaceScript}

/-! ## What guards call -/

theorem records_interfaceScript (h : s.interfaceScript d = ⟨n, .value i⟩) :
    s.Records n i.checks := by
  obtain ⟨-, j, k, hrecord, hchecks, rfl⟩ := interfaceScript_eq_value h
  obtain ⟨helpers, guards⟩ := records_objectChecksOf hchecks
  have none : j.helpers = [] := by
    have := (s.inside d).helpers_recordOf d.members (some "params") (some d.typeName)
    rwa [hrecord] at this
  exact ⟨by rw [Notes.helpers_append, none, helpers, List.nil_append], guards⟩

/-- **What guards call**: the helpers noted, and guards of the unit. -/
theorem records_interfaceScripts : ∀ {ds : List Declaration} {is : List InterfaceScript}
    {n : Notes}, s.interfaceScripts ds = .ok (is, n) → s.Records n (is.flatMap (·.checks))
  | [], is, n, h => by
    cases h
    exact ⟨rfl, nofun⟩
  | d :: ds, is, n, h => by
    obtain ⟨i, m, more, k, hmade, hrest, rfl, rfl⟩ := interfaceScripts_cons h
    exact (records_interfaceScript hmade).append (records_interfaceScripts hrest)

/-- Every guard asks whether it was given an object. -/
theorem isUnknownObject_mem_helpers (h : s.interfaceScript d = ⟨n, .value i⟩) :
    .isUnknownObject ∈ Check.helpersAll i.checks := by
  obtain ⟨-, j, k, -, hchecks, -⟩ := interfaceScript_eq_value h
  obtain ⟨_, made, -, hmade, -⟩ := Synthesis.objectChecksWith_eq_value hchecks
  rw [hmade]
  exact List.mem_cons_self ..

/-- **A helper is called by name** in a guard if a check calls it, and only then: the one helper whose
    name could be that of a guard is called by every guard. -/
theorem name_mem_called (h : s.interfaceScript d = ⟨n, .value i⟩) (f : Helper) :
    f.definition.name ∈ i.guardDefinition.called ↔ f ∈ Check.helpersAll i.checks := by
  rw [f.definition_name, i.mem_called_guard, functionNames, List.mem_append]
  constructor
  · rintro (hid | hid)
    · obtain ⟨f', hf', he⟩ := List.mem_map.1 hid
      exact Script.Helper.id_injective he ▸ hf'
    · obtain ⟨type, -, he⟩ := List.mem_map.1 hid
      by_cases ht : type = "UnknownObject"
      · subst ht
        have hf : Helper.isUnknownObject = f := Script.Helper.id_injective he
        exact hf ▸ isUnknownObject_mem_helpers h
      · exact absurd he.symm (Script.Helper.id_ne_guardName ht f)
  · intro hf
    exact .inl (List.mem_map_of_mem hf)

section
variable {ds : List Declaration} {is : List InterfaceScript}
  (h : s.interfaceScripts ds = .ok (is, n))
include h

/-- The helpers noted are those that guards call by name. -/
theorem mem_helpers_iff_called (f : Helper) :
    f ∈ n.helpers ↔ ∃ i ∈ is, f.definition.name ∈ i.guardDefinition.called := by
  obtain ⟨-, his⟩ := interfaceScripts_eq_ok h
  rw [(records_interfaceScripts h).helpers, Check.helpersAll_flatMap, List.mem_flatMap]
  refine exists_congr fun i => and_congr_right fun hi => ?_
  obtain ⟨m, hi', -⟩ := his i hi
  exact (name_mem_called hi' f).symm

/-- A guard that is called is the one of an interface of the unit. -/
theorem exists_interface_of_mem_calls (hi : i ∈ is) {type : String}
    (ht : type ∈ Check.callsAll i.checks) : ∃ d ∈ s.unit.interfaces, d.name = type := by
  have guards := (records_interfaceScripts h).guards
  rw [Check.callsAll_flatMap] at guards
  simpa [generates] using guards type (List.mem_flatMap.2 ⟨i, hi, ht⟩)

/-- **What a guard calls** are helpers that were noted and guards of interfaces of the unit. -/
theorem called_subset (hi : i ∈ is) : i.guardDefinition.called ⊆
    functionNames n.helpers (s.unit.interfaces.map (·.name)) := by
  intro f hf
  rw [i.mem_called_guard] at hf
  refine Script.functionNames_subset (fun f' hf' => ?_) (fun type ht => ?_) hf
  · rw [(records_interfaceScripts h).helpers, Check.helpersAll_flatMap]
    exact List.mem_flatMap.2 ⟨i, hi, hf'⟩
  · obtain ⟨d, hd, rfl⟩ := exists_interface_of_mem_calls h hi ht
    exact List.mem_map_of_mem hd

end

end Scope

/-! ## Outputs -/

/-- The output for a unit with interfaces: what it consists of, and that all that is called in it is
    defined in it. -/
structure GeneratedUnit.IsClosed (g : GeneratedUnit) (u : SourceUnit) (l : Layout) : Prop where
  /-- The contents are the import blocks and the definitions of functions: first those of the
      helpers, then the factory and the guard of each interface. -/
  contents : g.contents = g.script.asRun.text l.indent
  /-- There is one import block; it lists the name of each interface once, in order. -/
  imports : ∃ specifier names, g.script.imports = [⟨specifier, names⟩] ∧
    (l.directoryOf g.outFile).moduleSpecifier? u.path = some specifier ∧
    names.Nodup ∧ names = (u.interfaces.map (·.name)).eraseDups
  /-- The factories and guards are those of the interfaces, in order. -/
  interfaces : g.script.interfaces.map (·.declaration) = u.interfaces
  /-- The helpers recorded are defined. -/
  recorded : g.script.helpers = g.requirements.helpers
  /-- They are those that guards call, each once, in the order of definition. -/
  helpers : g.requirements.helpers = [Helper.isUnknownObject, .validateVector].filter fun h =>
    ∃ i ∈ g.script.interfaces, h.definition.name ∈ i.guardDefinition.called
  /-- A guard that is called is the one of an interface of the unit. -/
  guards : ∀ i ∈ g.script.interfaces, ∀ type ∈ Check.callsAll i.checks,
    ∃ d ∈ u.interfaces, d.name = type
  /-- Every function that is called by one of the functions is defined, or given to it. -/
  defined : ∀ d ∈ g.script.definitions, ∀ f ∈ d.called,
    d.callback?.map (·.name) = some f ∨ ∃ d' ∈ g.script.definitions, d'.name = f

namespace Layout

variable {l : Layout} {c : Catalog} {u : SourceUnit} {g : GeneratedUnit} {ws : List Diagnostic}

/-- The unit of an output with interfaces is imported, each interface by its name. -/
theorem imports_of_build (h : l.build c u = .ok (g, ws)) (hu : u.interfaces ≠ []) :
    ∃ specifier, (l.directoryOf g.outFile).moduleSpecifier? u.path = some specifier ∧
      g.script.imports = [⟨specifier, (u.interfaces.map (·.name)).eraseDups⟩] := by
  obtain ⟨n, -, himports, -⟩ := script_of_build h
  obtain ⟨-, hentries⟩ :=
    (entries_requirements u n.helpers).resolve_left fun hnone => hu hnone.1
  rw [hentries] at himports
  cases hs : (l.directoryOf g.outFile).moduleSpecifier? u.path with
  | none =>
    rw [importBlocks] at himports
    simp [hs] at himports
  | some specifier =>
    rw [importBlocks_singleton hs] at himports
    exact ⟨specifier, rfl, (Except.ok.inj himports).symm⟩

/-- Without interfaces nothing is needed and nothing is made. -/
theorem script_of_build_nil (h : l.build c u = .ok (g, ws)) (hu : u.interfaces = []) :
    g.script = ⟨[], [], []⟩ := by
  obtain ⟨n, hmade, himports, hneeded, hhelpers⟩ := script_of_build h
  rw [hu] at hmade
  have hfirst : (requirements u n.helpers).imports.entries = [] := by
    rcases entries_requirements u n.helpers with ⟨-, hnone⟩ | ⟨hsome, -⟩
    · exact hnone
    · exact absurd hu hsome
  rw [hfirst] at himports
  cases hs : g.script with
  | mk imports helpers interfaces =>
    simp only [hs] at hmade himports hhelpers
    cases hmade
    cases himports
    rw [hhelpers, hneeded, helpers_requirements]
    rfl

/-- **An output is empty** if its unit has no interface, and only then. -/
theorem isEmpty_of_build (h : l.build c u = .ok (g, ws)) :
    g.isEmpty = true ↔ u.interfaces = [] := by
  obtain ⟨-, -, -, hcontents, -⟩ := build_eq_ok h
  rw [GeneratedUnit.isEmpty, String.isEmpty_iff, hcontents]
  constructor
  · intro hempty
    by_contra hu
    obtain ⟨specifier, -, himports⟩ := imports_of_build h hu
    simp [UnitScript.code, himports, Script.Import.code, Code.block] at hempty
  · intro hu
    rw [script_of_build_nil h hu]
    rfl

/-- The helpers and the guards of a unit are among the functions that it defines. -/
theorem exists_definition (s : UnitScript) {f : String}
    (hf : f ∈ functionNames s.helpers (s.interfaces.map (·.declaration.name))) :
    ∃ d ∈ s.definitions, d.name = f := by
  rcases List.mem_append.1 hf with hf | hf
  · obtain ⟨h, hh, rfl⟩ := List.mem_map.1 hf
    exact ⟨h.definition, List.mem_append_left _ (List.mem_map_of_mem hh), h.definition_name⟩
  · simp only [List.mem_map, exists_exists_and_eq_and] at hf
    obtain ⟨i, hi, rfl⟩ := hf
    have hguard : i.guardDefinition ∈ s.definitions :=
      List.mem_append_right _ (List.mem_flatMap.2 ⟨i, hi, by simp⟩)
    exact ⟨i.guardDefinition, hguard, rfl⟩

/-- **An output is closed**: all that its functions call is defined in it, and every helper that is
    defined in it is called. -/
theorem build_closed (h : l.build c u = .ok (g, ws)) (hu : u.interfaces ≠ []) :
    g.IsClosed u l := by
  obtain ⟨n, hmade, -, hneeded, hhelpers⟩ := script_of_build h
  obtain ⟨-, -, -, hcontents, -⟩ := build_eq_ok h
  obtain ⟨specifier, hspecifier, himports⟩ := imports_of_build h hu
  obtain ⟨hds, -⟩ := Scope.interfaceScripts_eq_ok hmade
  refine ⟨?_, ?_, hds, hhelpers, ?_, ?_, ?_⟩
  · rw [hcontents, g.script.same_code.text_eq]
  · exact ⟨specifier, _, himports, hspecifier, Code.nodup_eraseDups _, rfl⟩
  · rw [hneeded, helpers_requirements]
    exact List.filter_congr fun f _ => by simp [Scope.mem_helpers_iff_called hmade f]
  · intro i hi type ht
    exact Scope.exists_interface_of_mem_calls hmade hi ht
  · intro d hd f hf
    rcases List.mem_append.1 hd with hd | hd
    · obtain ⟨h, -, rfl⟩ := List.mem_map.1 hd
      exact .inl (h.called_definition hf)
    · obtain ⟨i, hi, hd⟩ := List.mem_flatMap.1 hd
      rcases List.mem_pair.1 hd with rfl | rfl
      · rw [i.called_factory] at hf
        cases hf
      · refine .inr (exists_definition _ ?_)
        have hnames : g.script.interfaces.map (·.declaration.name) = u.interfaces.map (·.name) := by
          rw [← hds, List.map_map]; rfl
        rw [hnames, hhelpers, hneeded]
        exact Script.functionNames_subset (fun _ => mem_requirements) (List.Subset.refl _)
          (Scope.called_subset hmade hi hf)

/-- The output for a unit whose guard calls itself and both helpers is closed. -/
theorem build_closed_node : ∃ g ws,
    (⟨⟨""⟩, ⟨"out"⟩, .spaces 2⟩ : Layout).build nodeCatalog nodeUnit = .ok (g, ws) ∧
      nodeUnit.interfaces ≠ [] ∧ g.IsClosed nodeUnit ⟨⟨""⟩, ⟨"out"⟩, .spaces 2⟩ := by
  have built : ((⟨⟨""⟩, ⟨"out"⟩, .spaces 2⟩ : Layout).build nodeCatalog nodeUnit).isOk := by
    decide +kernel
  obtain ⟨⟨g, ws⟩, h⟩ := exists_ok_of_isOk built
  have some : nodeUnit.interfaces ≠ [] := List.cons_ne_nil _ _
  exact ⟨g, ws, h, some, build_closed h some⟩

end Layout

end InterfaceGuards
