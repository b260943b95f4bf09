/-
  The guards of a unit.

  * `UnitScript.callable_helper`, `callable_guard`: the functions of a unit are found by name.
  * `UnitScript.answers_runGuard`: guards that check exactly, and call one another, tell which
    values have the members of their interface.
  * `guards_exact`: the guards of every unit that is built do.
-/
import InterfaceGuards.Proofs.Guard.Correctness
import InterfaceGuards.Proofs.Unit.Build

namespace InterfaceGuards

open Script (Answers Check Decides Definition Environment Helper Value callable)

/-! ## Names of functions -/

namespace Script

theorem Helper.definition_name (h : Helper) : h.definition.name = h.id := by cases h <;> rfl

theorem Helper.id_injective {g h : Helper} (hid : g.id = h.id) : g = h := by
  cases g <;> cases h <;> simp [Helper.id] at hid ⊢

theorem guardName_injective {n m : String} (h : guardName n = guardName m) : n = m := by
  simpa [guardName, ← String.toList_inj] using h

theorem Helper.id_ne_guardName {name : String} (hn : name ≠ "UnknownObject") (h : Helper) :
    h.id ≠ guardName name := by
  intro hid
  cases h with
  | isUnknownObject => exact hn (guardName_injective (n := "UnknownObject") hid).symm
  | validateVector => simp [Helper.id, guardName, ← String.toList_inj] at hid

theorem factoryName_injective {n m : String} (h : factoryName n = factoryName m) : n = m := by
  simpa [factoryName, ← String.toList_inj] using h

theorem factoryName_ne_guardName (n m : String) : factoryName n ≠ guardName m := by
  simp [factoryName, guardName, ← String.toList_inj]

theorem find?_helper {h : Helper} (ds : List Definition) : ∀ {hs : List Helper}, h ∈ hs →
    (hs.map Helper.definition ++ ds).find? (·.name = h.id) = some h.definition
  | g :: gs, hh => by
    rw [List.map_cons, List.cons_append, List.find?_cons, Helper.definition_name]
    by_cases hg : g.id = h.id
    · simp [Helper.id_injective hg]
    · rcases List.mem_cons.1 hh with rfl | hh
      · exact absurd rfl hg
      · simpa [hg] using find?_helper ds hh

end Script

theorem InterfaceScript.find?_guard {i : InterfaceScript} : ∀ {is : List InterfaceScript},
    (is.map (·.declaration.name)).Nodup → i ∈ is →
    (is.flatMap fun i => [i.factoryDefinition, i.guardDefinition]).find?
      (·.name = Script.guardName i.declaration.name) = some i.guardDefinition
  | j :: js, hnodup, hi => by
    have hfactory : j.factoryDefinition.name ≠ Script.guardName i.declaration.name :=
      Script.factoryName_ne_guardName j.declaration.name i.declaration.name
    rw [List.map_cons, List.nodup_cons] at hnodup
    rw [List.flatMap_cons, List.cons_append, List.find?_cons_of_neg (by simpa using hfactory),
      List.cons_append, List.find?_cons]
    rcases List.mem_cons.1 hi with rfl | hi
    · have hguard : i.guardDefinition.name = Script.guardName i.declaration.name := rfl
      simp [hguard]
    · have hne : j.declaration.name ≠ i.declaration.name := fun he =>
        hnodup.1 (he ▸ List.mem_map_of_mem hi)
      have hguard : j.guardDefinition.name ≠ Script.guardName i.declaration.name := fun he =>
        hne (Script.guardName_injective he)
      simpa [hguard] using find?_guard hnodup.2 hi

namespace UnitScript

variable {u : UnitScript}

theorem callable_helper {h : Helper} (hh : h ∈ u.helpers) (depth : Nat) :
    callable u.definitions (depth + 1) h.id =
      some (h.definition.apply (callable u.definitions depth)) := by
  rw [callable, definitions, Script.find?_helper _ hh]; rfl

theorem callable_guard (hnodup : (u.interfaces.map (·.declaration.name)).Nodup)
    {i : InterfaceScript} (hi : i ∈ u.interfaces) (hn : i.declaration.name ≠ "UnknownObject")
    (depth : Nat) :
    callable u.definitions (depth + 1) (Script.guardName i.declaration.name) =
      some (i.guardDefinition.apply (callable u.definitions depth)) := by
  have no_helper : (u.helpers.map Helper.definition).find?
      (·.name = Script.guardName i.declaration.name) = none := by
    simpa [Helper.definition_name] using fun h _ => Helper.id_ne_guardName hn h
  rw [callable, definitions, List.find?_append, no_helper, Option.none_or,
    InterfaceScript.find?_guard hnodup hi]
  rfl

end UnitScript

/-! ## Guards -/

/-- What the guard of an interface says about a value is right, however deep its calls may go. -/
theorem UnitScript.returns_iff {u : UnitScript} {i : InterfaceScript} {v : Value} {P : Prop}
    {enough : Nat} (h : ∀ depth ≥ enough, Answers (u.runGuard i depth v) P) :
    (u.Returns i v (.boolean true) ↔ P) ∧ (u.Returns i v (.boolean false) ↔ ¬ P) := by
  by_cases hP : P
  · have htrue : u.Returns i v (.boolean true) := ⟨enough, fun d hd => (h d hd).eq_true hP⟩
    refine ⟨by simp [hP, htrue], ?_⟩
    simp only [hP, not_true_eq_false, iff_false]
    intro hfalse
    simpa using htrue.unique hfalse
  · have hfalse : u.Returns i v (.boolean false) := ⟨enough, fun d hd => (h d hd).eq_false hP⟩
    refine ⟨?_, by simp [hP, hfalse]⟩
    simp only [hP, iff_false]
    intro htrue
    simpa using htrue.unique hfalse

theorem Catalog.PlainlyNamed.nodup_unit {c : Catalog} (hp : c.PlainlyNamed) {u : SourceUnit}
    (hmem : u ∈ c.units) : (u.declarations.map (·.name)).Nodup := by
  refine hp.nodup.sublist (List.Sublist.map _ ?_)
  rw [List.flatMap_def]
  exact List.sublist_flatten_of_mem (List.mem_map_of_mem hmem)

theorem declares_of_mem_script {c : Catalog} {u : SourceUnit} {l : Layout} {g : GeneratedUnit}
    {ws : List Diagnostic} (hmem : u ∈ c.units) (h : l.build c u = .ok (g, ws))
    {i : InterfaceScript} (hi : i ∈ g.script.interfaces) : c.Declares i.declaration := by
  obtain ⟨n, hmade, -⟩ := Layout.build_eq_ok h
  obtain ⟨hds, -⟩ := Scope.interfaceScripts_eq_ok hmade
  have hi : i.declaration ∈ u.interfaces := hds ▸ List.mem_map_of_mem hi
  exact ⟨u, hmem, (List.mem_filter.1 hi).1⟩

section
variable {c : Catalog} {u : SourceUnit} {l : Layout} {g : GeneratedUnit} {ws : List Diagnostic}
  (hp : c.PlainlyNamed) (hmem : u ∈ c.units) (h : l.build c u = .ok (g, ws))
include hp hmem h

theorem nodup_script : (g.script.interfaces.map (·.declaration.name)).Nodup := by
  obtain ⟨n, hmade, -⟩ := Layout.build_eq_ok h
  obtain ⟨hds, -⟩ := Scope.interfaceScripts_eq_ok hmade
  have hnames : (g.script.interfaces.map (·.declaration.name)) = u.interfaces.map (·.name) := by
    rw [← hds, List.map_map]; rfl
  rw [hnames]
  exact (hp.nodup_unit hmem).sublist (List.filter_sublist.map _)

/-- The checks of each interface decide whether a value has its members. -/
theorem decides_checks {i : InterfaceScript} (hi : i ∈ g.script.interfaces) {env : Environment}
    {v : Value} (hs : Supports env c u v.size ⟨g.script.helpers, []⟩)
    (hv : Script.Accessor.value.term.eval env = .ok v) :
    Decides env (Check.statements i.checks) (c.HasMembers v i.declaration.members) := by
  obtain ⟨n, hmade, hhelpers, -⟩ := Layout.build_eq_ok h
  obtain ⟨-, his⟩ := Scope.interfaceScripts_eq_ok hmade
  obtain ⟨m, hi', hsub, -⟩ := his i hi
  obtain ⟨-, j, k, -, hchecks, rfl⟩ := Scope.interfaceScript_eq_value hi'
  have hd := declares_of_mem_script hmem h hi
  refine Exact.objectChecksWith (exact_checksOfType hp hmem v.size _) rfl rfl hd.members_occur
    hchecks ⟨fun f hf => hs.helpers f ?_, hs.guards⟩ hv (Nat.le_refl _)
  show f ∈ g.script.helpers
  rw [hhelpers]
  exact Layout.mem_requirements (hsub (by simp [Notes.helpers_append, hf]))

/-- **A guard tells which values have the members of its interface**, whenever more functions may
    be active than the value has objects in it: each call is made for a smaller value. -/
theorem answers_runGuard : ∀ {depth : Nat} {i : InterfaceScript} {v : Value},
    i ∈ g.script.interfaces → v.size < depth →
    Answers (g.script.runGuard i depth v) (c.HasMembers v i.declaration.members) := by
  intro depth
  induction depth with
  | zero => intro i v _ hv; omega
  | succ depth ih =>
    intro i v hi hv
    refine (decides_checks hp hmem h hi ⟨fun f hf => ?_, fun d hd w hw => ?_⟩ ?_).answers
    · have := UnitScript.callable_helper hf depth
      exact Script.offers_of_definition this
    · obtain ⟨n, hmade, -⟩ := Layout.build_eq_ok h
      rw [← (Scope.interfaceScripts_eq_ok hmade).1] at hd
      obtain ⟨j, hj, rfl⟩ := List.mem_map.1 hd
      have hj' := hp.ne_unknownObject (declares_of_mem_script hmem h hj)
      have := UnitScript.callable_guard (nodup_script hp hmem h) hj hj' depth
      rw [Script.call_eq this]
      exact ih hj (by omega)
    · exact Script.lookup_param ..

/-- **Guards are exact.**  In a catalog in which names are plain, the guard of every interface of
    a unit returns `true` for the values that are objects with the members of the interface, and
    `false` for all others. -/
theorem guards_exact :
    g.contents = g.script.asRun.text l.indent ∧
      g.script.interfaces.map (·.declaration) = u.interfaces ∧
      ∀ i ∈ g.script.interfaces, ∀ v : Value,
        (g.script.Returns i v (.boolean true) ↔ c.HasMembers v i.declaration.members) ∧
        (g.script.Returns i v (.boolean false) ↔ ¬ c.HasMembers v i.declaration.members) := by
  obtain ⟨n, hmade, -, hcontents, -⟩ := Layout.build_eq_ok h
  refine ⟨?_, (Scope.interfaceScripts_eq_ok hmade).1, fun i hi v => ?_⟩
  · rw [hcontents, g.script.same_code.text_eq]
  · exact UnitScript.returns_iff fun depth (hd : depth ≥ v.size + 1) =>
      answers_runGuard hp hmem h hi hd

end

/-- A unit with an interface that refers to itself. -/
def nodeUnit : SourceUnit where
  path := ⟨"node.ts"⟩
  declarations := [⟨"Node", .interfaceType, [],
    [⟨some "label", some (.union [.keyword .string, .keyword .null]), false, .property⟩,
      ⟨some "next", some (.array (.named "Node" [] none)), true, .property⟩]⟩]

/-- The catalog of the unit alone. -/
def nodeCatalog : Catalog := ⟨[nodeUnit]⟩

theorem nodeCatalog_plainlyNamed : nodeCatalog.PlainlyNamed where
  nodup := by decide
  ne_date := by
    rintro d ⟨u, hu, hd⟩
    obtain rfl := List.mem_singleton.1 hu
    obtain rfl := List.mem_singleton.1 hd
    decide
  ne_unknownObject := by
    rintro d ⟨u, hu, hd⟩
    obtain rfl := List.mem_singleton.1 hu
    obtain rfl := List.mem_singleton.1 hd
    decide

/-- The guard of the interface is exact, the call of itself included. -/
theorem guards_exact_node : ∃ g ws,
    (⟨⟨""⟩, ⟨"out"⟩, .spaces 2⟩ : Layout).build nodeCatalog nodeUnit = .ok (g, ws) ∧
      g.contents = g.script.asRun.text (.spaces 2) ∧
      g.script.interfaces.map (·.declaration) = nodeUnit.interfaces ∧
      ∀ i ∈ g.script.interfaces, ∀ v : Value,
        (g.script.Returns i v (.boolean true) ↔
          nodeCatalog.HasMembers v i.declaration.members) ∧
        (g.script.Returns i v (.boolean false) ↔
          ¬ nodeCatalog.HasMembers v i.declaration.members) := by
  have built : ((⟨⟨""⟩, ⟨"out"⟩, .spaces 2⟩ : Layout).build nodeCatalog nodeUnit).isOk := by
    decide +kernel
  obtain ⟨⟨g, ws⟩, h⟩ := exists_ok_of_isOk built
  have hmem : nodeUnit ∈ nodeCatalog.units := List.mem_singleton.2 rfl
  have guards := guards_exact nodeCatalog_plainlyNamed hmem h
  exact ⟨g, ws, h, guards⟩

end InterfaceGuards
