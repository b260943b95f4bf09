/-
  The factories of a unit make what its guards accept.

  * `Scope.creates_recordOf`: what a factory returns when it is called without arguments is its
    record, with nothing spread into it.
  * `Scope.returns_of_onlyForm`: that passes the guard, unless a default was left out with a warning.
  * `defaults_pass`: so it is for what is written for every interface of a unit.
-/
import InterfaceGuards.Proofs.Factory.Agreement
import InterfaceGuards.Proofs.Factory.Splicing
import InterfaceGuards.Proofs.Guard.Unit
import InterfaceGuards.Proofs.Manifest.Number

namespace InterfaceGuards

open Script (Value)

/-- **A factory makes its record.**  Its parameter is an object without properties when the factory
    is called without arguments. -/
theorem Scope.creates_recordOf {s : Scope} {ms : List Member} {cast : Option String} {n : Notes}
    {i : InterfaceScript} (h : s.recordOf ms (some "params") cast = ⟨n, .value i.record⟩)
    (u : UnitScript) : u.Creates i (i.record.eval fun _ => []) := by
  refine ⟨0, fun depth _ => ?_⟩
  set env := i.factoryDefinition.environment (Script.callable u.definitions depth) (.object []) none
  have hparams : ∀ name ∈ some "params", env.values name = some (.object []) := by
    rintro _ ⟨⟩
    rfl
  have hrecord : i.record.term.eval env = .ok (i.record.eval fun _ => []) :=
    (splices_recordOf hparams (fun _ _ => trivial) h).eval_term
  show Script.returned (Script.Statement.runAll env [.returns i.record.term]) = _
  rw [Script.Statement.runAll_singleton, Script.Statement.run, hrecord]
  rfl

section
variable {text : String} {baseDir : Path} {p : Project}
  (hp : Project.load text baseDir = .ok p) (hd : p.catalog.DistinctMembers) {u : SourceUnit}
  (hu : u ∈ p.catalog.units) {l : Layout} {g : GeneratedUnit} {ws : List Diagnostic}
  (h : l.build p.catalog u = .ok (g, ws))
include hp hd hu h

/-- The guard of an interface returns `true` for the record of its factory, when no other default was
    left out on the way than those of members that are no properties. -/
theorem returns_of_onlyForm {i : InterfaceScript} (hi : i ∈ g.script.interfaces)
    (hform : ((Scope.start p.catalog u).interfaceScript i.declaration).notes.OnlyForm) :
    g.script.Returns i (i.record.eval fun _ => []) (.boolean true) := by
  have hdecl := declares_of_mem_script hu h hi
  obtain ⟨n, hmade, hhelpers, -⟩ := Layout.build_eq_ok h
  obtain ⟨-, his⟩ := Scope.interfaceScripts_eq_ok hmade
  obtain ⟨k, hscript, hsub, -⟩ := his i hi
  rw [hscript] at hform
  obtain ⟨-, j, j', hrecord, hchecks, rfl⟩ := Scope.interfaceScript_eq_value hscript
  refine ⟨1, fun depth hdepth => ?_⟩
  obtain ⟨depth, rfl⟩ : ∃ d, depth = d + 1 := ⟨depth - 1, by omega⟩
  refine Script.Passes.returns ?_
  refine Agrees.objectChecksWith (agrees_ofType hd (Project.numbered_of_occurs hp) _ _)
    Synthesis.isMalformed_of_defaultOfType rfl (hd.declared hdecl)
    hdecl.members_occur rfl hrecord hform.left hchecks (fun f hf => ?_)
    (Script.lookup_param ..)
  have hf : f ∈ g.script.helpers := by
    rw [hhelpers]
    exact Layout.mem_requirements (hsub (by simp [Notes.helpers_append, hf]))
  have := UnitScript.callable_helper hf depth
  exact Script.offers_of_definition this

/-- **Defaults pass.**  In every project whose object types have members of different names, the
    factory of an interface returns an object when it is called without arguments, and the guard of
    the interface returns `true` for the object, when no other default was left out on the way than
    those of members that are no properties. -/
theorem defaults_pass :
    g.contents = g.script.asRun.text l.indent ∧
      g.script.interfaces.map (·.declaration) = u.interfaces ∧
      ∀ i ∈ g.script.interfaces,
        ((Scope.start p.catalog u).interfaceScript i.declaration).notes.OnlyForm →
          (∃ v, g.script.Creates i v) ∧
            ∀ v, g.script.Creates i v → g.script.Returns i v (.boolean true) := by
  obtain ⟨n, hmade, -, hcontents, -⟩ := Layout.build_eq_ok h
  obtain ⟨hds, his⟩ := Scope.interfaceScripts_eq_ok hmade
  refine ⟨by rw [hcontents, g.script.same_code.text_eq], hds, fun i hi hform => ?_⟩
  obtain ⟨k, hscript, -⟩ := his i hi
  obtain ⟨-, j, j', hrecord, -⟩ := Scope.interfaceScript_eq_value hscript
  have hcreates := Scope.creates_recordOf hrecord g.script
  refine ⟨⟨_, hcreates⟩, fun v hv => ?_⟩
  rw [hv.unique hcreates]
  exact returns_of_onlyForm hp hd hu h hi hform

end

/-! ## A unit with an interface that refers to itself -/

/-- A manifest with an interface that refers to itself and has a method. -/
def nodeManifest : String :=
  "units=[\x7bpath='n.ts',interfaces=[\x7bname='N',members=[\x7bname='a',type='1|null'\x7d," ++
    "\x7bname='n',type='N',optional=true\x7d,\x7bname='f',kind='method'\x7d]\x7d]\x7d]"

/-- The interface of the manifest. -/
def nodeDeclaration : Declaration :=
  ⟨"N", .interfaceType, [],
    [⟨some "a", some (.union [.literal (.number (.ofDecimal false 1 0)), .keyword .null]), false,
        .property⟩,
      ⟨some "n", some (.named "N" [] (some ⟨"n.ts"⟩)), true, .property⟩,
      ⟨some "f", none, false, .method⟩]⟩

/-- The unit of the manifest. -/
def nodeSource : SourceUnit := ⟨⟨"n.ts"⟩, [nodeDeclaration]⟩

/-- The project of the manifest, with the places at which names and types are written in it. -/
def nodeProject : Project :=
  ⟨⟨Manifest.noSettings, [⟨⟨"n.ts", ⟨13, 19⟩⟩,
    [⟨⟨"N", ⟨38, 41⟩⟩, [],
      [⟨some ⟨"a", ⟨57, 60⟩⟩, some ⟨"1|null", ⟨66, 74⟩⟩, false, .property⟩,
        ⟨some ⟨"n", ⟨82, 85⟩⟩, some ⟨"N", ⟨91, 94⟩⟩, true, .property⟩,
        ⟨some ⟨"f", ⟨116, 119⟩⟩, none, false, .method⟩]⟩], [], []⟩]⟩,
    ⟨""⟩, ⟨[nodeSource]⟩⟩

theorem load_nodeManifest : Project.load nodeManifest ⟨""⟩ = .ok nodeProject := by
  have hread : (Toml.parse? nodeManifest).bind Manifest.ofToml? = some nodeProject.manifest := by
    decide +kernel
  exact Project.load_eq_ok.2 ⟨nodeProject.manifest, hread, rfl⟩

theorem eq_nodeDeclaration {d : Declaration} (h : nodeProject.catalog.Declares d) :
    d = nodeDeclaration := by
  obtain ⟨u, hu, hd⟩ := h
  cases List.mem_singleton.1 hu
  exact List.mem_singleton.1 hd

/-- The types written in the manifest. -/
def nodeTypes : List TypeExpr :=
  [.union [.literal (.number (.ofDecimal false 1 0)), .keyword .null],
    .literal (.number (.ofDecimal false 1 0)), .keyword .null, .named "N" [] (some ⟨"n.ts"⟩)]

theorem mem_nodeTypes {t : TypeExpr} (h : nodeProject.catalog.Occurs t) : t ∈ nodeTypes := by
  induction h with
  | member hd hm ht =>
    cases eq_nodeDeclaration hd
    simp only [nodeDeclaration, List.mem_cons, List.not_mem_nil, or_false] at hm
    rcases hm with rfl | rfl | rfl <;> cases ht <;> simp [nodeTypes]
  | target hd hk => cases eq_nodeDeclaration hd; cases hk
  | element _ ih => simp [nodeTypes] at ih
  | alternative _ ht ih =>
    simp only [nodeTypes, List.mem_cons, TypeExpr.union.injEq, reduceCtorEq, List.not_mem_nil,
      or_false] at ih
    subst ih
    rcases List.mem_pair.1 ht with rfl | rfl <;> simp [nodeTypes]
  | property _ _ _ ih => simp [nodeTypes] at ih
  | argument _ ht ih =>
    simp only [nodeTypes, List.mem_cons, TypeExpr.named.injEq, reduceCtorEq, List.not_mem_nil,
      or_false, false_or] at ih
    obtain ⟨-, rfl, -⟩ := ih
    cases ht

theorem distinctMembers_nodeProject : nodeProject.catalog.DistinctMembers where
  declared hd := by
    cases eq_nodeDeclaration hd
    decide
  object h := by
    have := mem_nodeTypes h
    simp [nodeTypes] at this

/-- The method is all that is left out of what is made for the interface. -/
theorem onlyForm_node : ((Scope.start nodeProject.catalog nodeSource).interfaceScript
    nodeDeclaration).notes.OnlyForm := by
  have hw : ((Scope.start nodeProject.catalog nodeSource).interfaceScript
      nodeDeclaration).notes.warnings = ["default", "validator"].map fun phase =>
        (((Scope.start nodeProject.catalog nodeSource).inside nodeDeclaration).within "f").skipped
          phase (.malformedMember "f" .notProperty) := by
    decide +kernel
  intro w hm _
  rw [hw] at hm
  obtain ⟨phase, -, rfl⟩ := List.mem_map.1 hm
  exact ⟨"f", .notProperty, rfl⟩

/-- What the factory of the interface makes, with an optional member left `undefined`, passes the
    guard. -/
theorem defaults_pass_node : Project.load nodeManifest ⟨""⟩ = .ok nodeProject ∧ ∃ g ws,
    (⟨⟨""⟩, ⟨"out"⟩, .spaces 2⟩ : Layout).build nodeProject.catalog nodeSource = .ok (g, ws) ∧
      g.contents = g.script.asRun.text (.spaces 2) ∧
      ∃ i, g.script.interfaces = [i] ∧ i.declaration = nodeDeclaration ∧
        (∃ v, g.script.Creates i v) ∧
          ∀ v, g.script.Creates i v → g.script.Returns i v (.boolean true) := by
  have built : ((⟨⟨""⟩, ⟨"out"⟩, .spaces 2⟩ : Layout).build nodeProject.catalog
      nodeSource).isOk := by
    decide +kernel
  obtain ⟨⟨g, ws⟩, h⟩ := exists_ok_of_isOk built
  obtain ⟨hcontents, hds, hpass⟩ := defaults_pass load_nodeManifest distinctMembers_nodeProject
    (List.mem_singleton.2 rfl) h
  obtain ⟨i, hi, hdecl⟩ : ∃ i, g.script.interfaces = [i] ∧ i.declaration = nodeDeclaration :=
    List.map_eq_singleton_iff.1 hds
  have hform := hdecl ▸ onlyForm_node
  exact ⟨load_nodeManifest, g, ws, h, hcontents, i, hi, hdecl, hpass i (by simp [hi]) hform⟩

end InterfaceGuards
