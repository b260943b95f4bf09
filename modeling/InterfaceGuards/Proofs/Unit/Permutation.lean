/-
  Units that declare the same in another order.

  * `Scope.block`, `Scope.findings`: the text made for an interface, and what is found on the way.
  * `Layout.build_composed`: the output of a unit holds one block for each interface, in order, and
    its findings are those for each interface, in order.
  * `Project.order_immaterial`: the order of declarations in a unit matters to no interface.
-/
import InterfaceGuards.Proofs.Catalog.Permutation
import InterfaceGuards.Proofs.Manifest.Distinct
import InterfaceGuards.Proofs.Recursion.Genuine
import InterfaceGuards.Proofs.Synthesis.Alike
import InterfaceGuards.Proofs.Unit.Contents

namespace InterfaceGuards

open Script (Helper)

theorem Code.text_flatMap {α : Type} (indent : Code.Indent) (f : α → Code) (xs : List α) :
    Code.text indent (xs.flatMap f) = String.join (xs.map fun x => (f x).text indent) := by
  induction xs with
  | nil => rfl
  | cons x xs ih =>
    rw [List.flatMap_cons, Code.text_append, ih, List.map_cons, String.join_cons]

/-- The text before the factories and guards of a unit: the imports and the helpers. -/
def UnitScript.header (s : UnitScript) (indent : Code.Indent) : String :=
  Code.text indent (s.imports.flatMap Script.Import.code ++ s.helpers.flatMap Helper.code)

namespace Scope

variable {s : Scope}

/-- The text of the factory and the guard of an interface, if they can be made. -/
def block (s : Scope) (indent : Code.Indent) (d : Declaration) : String :=
  match (s.interfaceScript d).outcome with
  | .value i => i.code.text indent
  | _ => ""

/-- What is found on the way to the factory and the guard of an interface. -/
def findings (s : Scope) (d : Declaration) : List Diagnostic :=
  (s.interfaceScript d).notes.warnings

end Scope

/-- The output holds the blocks of some interfaces as a scope makes them, in order, after the
    imports and the helpers; and the findings are those that the scope makes for them, in order. -/
structure GeneratedUnit.ComposedOf (g : GeneratedUnit) (s : Scope) (indent : Code.Indent)
    (ds : List Declaration) (ws : List Diagnostic) : Prop where
  contents : g.contents = g.script.header indent ++ String.join (ds.map (s.block indent))
  findings : ws = ds.flatMap s.findings

/-- Scopes that make the same of each interface make the same blocks. -/
theorem GeneratedUnit.ComposedOf.congr {g : GeneratedUnit} {s s' : Scope} {indent : Code.Indent}
    {ds : List Declaration} {ws : List Diagnostic} (h : g.ComposedOf s' indent ds ws)
    (hs : s'.interfaceScript = s.interfaceScript) : g.ComposedOf s indent ds ws := by
  have hblock : s'.block indent = s.block indent := by
    funext d
    rw [Scope.block, hs, Scope.block]
  have hfindings : s'.findings = s.findings := by
    funext d
    rw [Scope.findings, hs, Scope.findings]
  exact ⟨hblock ▸ h.contents, hfindings ▸ h.findings⟩

namespace Scope

variable {s : Scope}

/-! ## Several interfaces -/

/-- Several interfaces have factories and guards if each of them has. -/
theorem exists_interfaceScripts_iff {ds : List Declaration} :
    (∃ made, s.interfaceScripts ds = .ok made) ↔
      ∀ d ∈ ds, ∃ n i, s.interfaceScript d = ⟨n, .value i⟩ := by
  induction ds with
  | nil => simp [interfaceScripts]
  | cons d ds ih =>
    rw [List.forall_mem_cons, ← ih]
    constructor
    · rintro ⟨⟨is, n⟩, h⟩
      obtain ⟨i, m, more, k, hmade, hrest, -⟩ := interfaceScripts_cons h
      exact ⟨⟨m, i, hmade⟩, _, hrest⟩
    · rintro ⟨⟨m, i, hmade⟩, ⟨is, n⟩, hrest⟩
      refine ⟨(i :: is, m ++ n), ?_⟩
      rw [interfaceScripts, hmade, hrest]

/-- What is made for several interfaces, and noted on the way, is made and noted for each. -/
theorem interfaceScripts_each (indent : Code.Indent) : ∀ {ds : List Declaration}
    {is : List InterfaceScript} {n : Notes}, s.interfaceScripts ds = .ok (is, n) →
    is.map (fun i => i.code.text indent) = ds.map (s.block indent) ∧
      n.warnings = ds.flatMap s.findings ∧
      n.helpers = ds.flatMap fun d => (s.interfaceScript d).notes.helpers
  | [], is, n, h => by
    cases h
    exact ⟨rfl, rfl, rfl⟩
  | d :: ds, is, n, h => by
    obtain ⟨i, m, more, k, hmade, hrest, rfl, rfl⟩ := interfaceScripts_cons h
    obtain ⟨hblocks, hwarnings, hhelpers⟩ := interfaceScripts_each indent hrest
    refine ⟨?_, ?_, ?_⟩
    · rw [List.map_cons, List.map_cons, hblocks, block, hmade]
    · rw [List.flatMap_cons, Notes.warnings_append, hwarnings, findings, hmade]
    · rw [List.flatMap_cons, Notes.helpers_append, hhelpers, hmade]

/-- The same is made of an interface in scopes in which the same is made. -/
theorem interfaceScript_alike {s' : Scope} (h : s.Alike s') (d : Declaration) :
    s'.interfaceScript d = s.interfaceScript d := by
  have inside := (h.within d.name).expand d.name
  simp only [interfaceScript, recordOf_alike inside, objectChecksOf_alike inside]

end Scope

namespace Layout

variable {l : Layout} {c c' : Catalog} {u u' : SourceUnit} {g : GeneratedUnit}
  {ws : List Diagnostic}

/-! ## Units -/

/-- **When a unit has an output**: its output has a place, each of its interfaces has a factory and
    a guard, and it can be imported if it has an interface. -/
theorem exists_build_iff : (∃ made, l.build c u = .ok made) ↔
    ∃ out, l.outFile u.path = .ok out ∧
      (∀ d ∈ u.interfaces, ∃ n i, (Scope.start c u).interfaceScript d = ⟨n, .value i⟩) ∧
      (u.interfaces ≠ [] →
        ∃ specifier, (l.directoryOf out).moduleSpecifier? u.path = some specifier) := by
  constructor
  · rintro ⟨⟨g, ws⟩, h⟩
    obtain ⟨n, hmade, -⟩ := build_eq_ok h
    refine ⟨g.outFile, outFile_of_build h, Scope.exists_interfaceScripts_iff.1 ⟨_, hmade⟩,
      fun hu => ?_⟩
    obtain ⟨specifier, hspecifier, -⟩ := imports_of_build h hu
    exact ⟨specifier, hspecifier⟩
  · rintro ⟨out, hout, hscripts, himported⟩
    obtain ⟨⟨is, n⟩, hmade⟩ := Scope.exists_interfaceScripts_iff.2 hscripts
    obtain ⟨imports, himports⟩ : ∃ imports,
        importBlocks (l.directoryOf out) (requirements u n.helpers).imports.entries =
          .ok imports := by
      rcases entries_requirements u n.helpers with ⟨-, hentries⟩ | ⟨hu, hentries⟩
      · rw [hentries]
        exact ⟨[], rfl⟩
      · obtain ⟨specifier, hspecifier⟩ := himported hu
        rw [hentries]
        exact ⟨_, importBlocks_singleton hspecifier⟩
    exact ⟨_, bind_eq_ok.2 ⟨out, hout, bind_eq_ok.2 ⟨_, hmade,
      bind_eq_ok.2 ⟨imports, himports, rfl⟩⟩⟩⟩

/-- **What the output of a unit is put together from**: one block for each interface, in order,
    after the imports and the helpers; its findings are those for each interface, in order. -/
theorem build_composed (h : l.build c u = .ok (g, ws)) :
    g.ComposedOf (Scope.start c u) l.indent u.interfaces ws := by
  obtain ⟨n, hmade, -, hcontents, rfl⟩ := build_eq_ok h
  obtain ⟨hblocks, hwarnings, -⟩ := Scope.interfaceScripts_each l.indent hmade
  refine ⟨?_, hwarnings⟩
  rw [hcontents, UnitScript.code, Code.text_append, Code.text_flatMap, hblocks]
  rfl

/-- The helpers of an output are those noted for its interfaces, in the order of definition. -/
theorem helpers_of_build (h : l.build c u = .ok (g, ws)) :
    g.requirements.helpers = Helper.all.filter (· ∈ u.interfaces.flatMap fun d =>
      ((Scope.start c u).interfaceScript d).notes.helpers) := by
  obtain ⟨n, hmade, -, hneeded, -⟩ := script_of_build h
  obtain ⟨-, -, hnoted⟩ := Scope.interfaceScripts_each l.indent hmade
  rw [hneeded, helpers_requirements, hnoted]

/-- Scopes of units that declare the same make the same. -/
theorem alike_of_reordered (hc : c.Reordered c') (hn : c.Distinct) (hu : u.Reordered u') :
    (Scope.start c u).Alike (Scope.start c' u') where
  describe := Catalog.describe_of_reordered hc hn
  bound := Catalog.expansionBound_of_reordered hc
  generates := by
    funext name
    exact hu.interfaces.any_eq
  place := hu.path
  expanding := rfl
  path := rfl

section
variable (hc : c.Reordered c') (hn : c.Distinct) (hu : u.Reordered u')
include hc hn hu

theorem interfaceScript_of_reordered (d : Declaration) :
    (Scope.start c' u').interfaceScript d = (Scope.start c u).interfaceScript d :=
  Scope.interfaceScript_alike (alike_of_reordered hc hn hu) d

/-- A unit that declares the same in another order has an output if it had one. -/
theorem exists_build_iff_of_reordered :
    (∃ made, l.build c' u' = .ok made) ↔ ∃ made, l.build c u = .ok made := by
  have hmem := fun d => hu.interfaces.mem_iff (a := d)
  have hnil : u'.interfaces ≠ [] ↔ u.interfaces ≠ [] := by
    simp only [ne_eq, List.eq_nil_iff_forall_not_mem, hmem]
  simp only [exists_build_iff, hu.path, hmem, interfaceScript_of_reordered hc hn hu, hnil]

theorem helpers_of_reordered {g' : GeneratedUnit} {ws' : List Diagnostic}
    (h : l.build c u = .ok (g, ws)) (h' : l.build c' u' = .ok (g', ws')) :
    g'.requirements.helpers = g.requirements.helpers ∧ g'.script.helpers = g.script.helpers := by
  obtain ⟨-, -, -, -, hdefined⟩ := script_of_build h
  obtain ⟨-, -, -, -, hdefined'⟩ := script_of_build h'
  have hhelpers : g'.requirements.helpers = g.requirements.helpers := by
    rw [helpers_of_build h, helpers_of_build h']
    simp only [interfaceScript_of_reordered hc hn hu, List.mem_flatMap, hu.interfaces.mem_iff]
  exact ⟨hhelpers, by rw [hdefined, hdefined', hhelpers]⟩

theorem composed_of_reordered {g' : GeneratedUnit} {ws' : List Diagnostic}
    (h' : l.build c' u' = .ok (g', ws')) :
    g'.ComposedOf (Scope.start c u) l.indent u'.interfaces ws' :=
  (build_composed h').congr (funext (interfaceScript_of_reordered hc hn hu))

end

end Layout

/-- **The order of declarations matters to no interface.**  If a unit of a project declares the same
    in another order, the same is made for each of its interfaces, or fails for the same reason, and
    the same is found on the way.  So the unit has an output as before, at the same place, with the
    same helpers and the same blocks and findings, in the order in which the interfaces are now. -/
theorem Project.order_immaterial {text : String} {baseDir : Path} {p : Project}
    (hp : Project.load text baseDir = .ok p) {before after : List SourceUnit} {u u' : SourceUnit}
    (hu : p.catalog.units = before ++ u :: after) (hu' : u.Reordered u') (l : Layout) :
    (∀ d ∈ u.interfaces, (Scope.start ⟨before ++ u' :: after⟩ u').interfaceScript d =
      (Scope.start p.catalog u).interfaceScript d) ∧
    ((∃ made, l.build ⟨before ++ u' :: after⟩ u' = .ok made) ↔
      ∃ made, l.build p.catalog u = .ok made) ∧
    ∀ {g g' : GeneratedUnit} {ws ws' : List Diagnostic}, l.build p.catalog u = .ok (g, ws) →
      l.build ⟨before ++ u' :: after⟩ u' = .ok (g', ws') →
      g'.outFile = g.outFile ∧ g'.requirements.helpers = g.requirements.helpers ∧
        g'.script.helpers = g.script.helpers ∧ u'.interfaces.Perm u.interfaces ∧
        g.ComposedOf (Scope.start p.catalog u) l.indent u.interfaces ws ∧
        g'.ComposedOf (Scope.start p.catalog u) l.indent u'.interfaces ws' := by
  have hc : p.catalog.Reordered ⟨before ++ u' :: after⟩ := by
    have hcatalog : p.catalog = ⟨before ++ u :: after⟩ := by rw [← hu]
    rw [hcatalog]
    exact Catalog.reordered_of_unit hu'
  have hn : p.catalog.Distinct := fun v hv => Project.nodup_names hp hv
  refine ⟨fun d _ => Layout.interfaceScript_of_reordered hc hn hu' d,
    Layout.exists_build_iff_of_reordered hc hn hu', fun {g g' ws ws'} hg hg' => ?_⟩
  have hout : l.outFile u.path = .ok g'.outFile := hu'.path ▸ Layout.outFile_of_build hg'
  obtain ⟨hhelpers, hdefined⟩ := Layout.helpers_of_reordered hc hn hu' hg hg'
  refine ⟨?_, hhelpers, hdefined, hu'.interfaces, Layout.build_composed hg, ?_⟩
  · exact Except.ok.inj (hout.symm.trans (Layout.outFile_of_build hg))
  · exact Layout.composed_of_reordered hc hn hu' hg'

/-- The unit that declares `Bar` and then `Foo`. -/
def barUnit : SourceUnit := fooUnits[1]

/-- The unit when it declares `Foo` first. -/
def turnedUnit : SourceUnit := { barUnit with declarations := barUnit.declarations.reverse }

/-- The order matters neither to `Foo`, which another unit declares too, nor to `Bar`, which refers
    to it. -/
theorem Project.order_immaterial_foo : Project.load fooManifest ⟨""⟩ = .ok fooProject ∧
    barUnit.Reordered turnedUnit ∧ turnedUnit.interfaces.map (·.name) = ["Foo", "Bar"] ∧
    ∃ g ws g' ws', (⟨⟨""⟩, ⟨"out"⟩, .spaces 2⟩ : Layout).build fooProject.catalog barUnit =
        .ok (g, ws) ∧
      (⟨⟨""⟩, ⟨"out"⟩, .spaces 2⟩ : Layout).build ⟨fooUnits.take 1 ++ [turnedUnit]⟩ turnedUnit =
        .ok (g', ws') ∧
      g'.outFile = g.outFile ∧ g'.requirements.helpers = g.requirements.helpers ∧
      g'.ComposedOf (Scope.start fooProject.catalog barUnit) (.spaces 2) turnedUnit.interfaces
        ws' := by
  have turned : barUnit.Reordered turnedUnit := ⟨rfl, List.reverse_perm _⟩
  have built : ((⟨⟨""⟩, ⟨"out"⟩, .spaces 2⟩ : Layout).build fooProject.catalog barUnit).isOk := by
    decide +kernel
  obtain ⟨⟨g, ws⟩, h⟩ := exists_ok_of_isOk built
  have units : fooProject.catalog.units = fooUnits.take 1 ++ barUnit :: [] := rfl
  obtain ⟨-, builds, composed⟩ :=
    Project.order_immaterial load_fooManifest units turned ⟨⟨""⟩, ⟨"out"⟩, .spaces 2⟩
  obtain ⟨⟨g', ws'⟩, h'⟩ := builds.2 ⟨_, h⟩
  obtain ⟨hout, hhelpers, -, -, -, hcomposed⟩ := composed h h'
  exact ⟨load_fooManifest, turned, rfl, g, ws, g', ws', h, h', hout, hhelpers, hcomposed⟩

end InterfaceGuards
