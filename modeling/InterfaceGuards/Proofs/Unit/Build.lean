/-
  Opening the build of a unit: what was made for each interface, and what the unit needs.

  * `Scope.interfaceScript_eq_value`: a factory and a guard are made one after the other.
  * `Scope.interfaceScripts_eq_ok`: every interface has a script of its own, in order.
  * `Layout.helpers_requirements`: the helpers needed are those noted, each once, in the order of
    definition.
  * `Layout.build_eq_ok`, `script_of_build`: the script of a unit is made of these and of the helpers noted.
  * `Layout.build_eq_error`: why no output is made for a unit.
-/
import InterfaceGuards.Proofs.Synthesis.Outcome
import InterfaceGuards.Unit.Build

namespace InterfaceGuards

open Script (Accessor Helper)

namespace Scope

/-- The scope in which an interface is worked on. -/
def inside (s : Scope) (d : Declaration) : Scope := (s.within d.name).expand d.name

theorem interfaceScript_eq_value {s : Scope} {d : Declaration} {n : Notes} {i : InterfaceScript}
    (h : s.interfaceScript d = ⟨n, .value i⟩) :
    i.declaration = d ∧ ∃ j k,
      (s.inside d).recordOf d.members (some "params") (some d.typeName) = ⟨j, .value i.record⟩ ∧
      (s.inside d).objectChecksOf .value d.members = ⟨k, .value i.checks⟩ ∧ n = j ++ k := by
  obtain ⟨j, record, k, hrecord, hrest, rfl⟩ := Synthesis.bind_eq_value.1 h
  obtain ⟨checks, hchecks, rfl⟩ := Synthesis.bind_pure_eq_value.1 hrest
  exact ⟨rfl, j, k, hrecord, hchecks, rfl⟩

theorem interfaceScripts_cons {s : Scope} {d : Declaration} {ds : List Declaration}
    {is : List InterfaceScript} {n : Notes} (h : s.interfaceScripts (d :: ds) = .ok (is, n)) :
    ∃ i j more k, s.interfaceScript d = ⟨j, .value i⟩ ∧ s.interfaceScripts ds = .ok (more, k) ∧
      is = i :: more ∧ n = j ++ k := by
  rw [interfaceScripts] at h
  cases hmade : s.interfaceScript d with
  | mk j o =>
  cases o with
  | error e => simp [hmade] at h
  | endless => simp [hmade] at h
  | value i =>
    cases hrest : s.interfaceScripts ds with
    | error e => simp [hmade, hrest] at h
    | ok made =>
      obtain ⟨more, k⟩ := made
      simp only [hmade, hrest, Except.ok.injEq, Prod.mk.injEq] at h
      obtain ⟨rfl, rfl⟩ := h
      exact ⟨i, j, more, k, rfl, rfl, rfl, rfl⟩

/-- **Every interface has a script of its own**, and what was noted for it was noted for all. -/
theorem interfaceScripts_eq_ok {s : Scope} : ∀ {ds : List Declaration} {is : List InterfaceScript}
    {n : Notes}, s.interfaceScripts ds = .ok (is, n) →
    is.map (·.declaration) = ds ∧ ∀ i ∈ is, ∃ m, s.interfaceScript i.declaration = ⟨m, .value i⟩ ∧
      m.helpers ⊆ n.helpers ∧ m.warnings ⊆ n.warnings
  | [], is, n, h => by
    cases h
    exact ⟨rfl, by simp⟩
  | d :: ds, is, n, h => by
    obtain ⟨i, m, more, k, hmade, hrest, rfl, rfl⟩ := interfaceScripts_cons h
    obtain ⟨hds, his⟩ := interfaceScripts_eq_ok hrest
    obtain ⟨hd, -⟩ := interfaceScript_eq_value hmade
    refine ⟨by rw [List.map_cons, hds, hd], List.forall_mem_cons.2 ⟨?_, fun j hj => ?_⟩⟩
    · exact ⟨m, by rw [hd, hmade], List.subset_append_left .., List.subset_append_left ..⟩
    · obtain ⟨l, hl, hh, hw⟩ := his j hj
      exact ⟨l, hl, List.subset_append_of_subset_right _ hh,
        List.subset_append_of_subset_right _ hw⟩

/-- Scripts fail for an interface of the unit. -/
theorem interfaceScripts_eq_error {s : Scope} {e : GenerateError} : ∀ {ds : List Declaration},
    s.interfaceScripts ds = .error e →
      ∃ declaration, (∃ source, e = .synthesis s.unit.path declaration source) ∨
        e = .endless s.unit.path declaration
  | [], h => by cases h
  | d :: ds, h => by
    rw [interfaceScripts] at h
    split at h
    · cases h
      exact ⟨d.name, .inl ⟨_, rfl⟩⟩
    · cases h
      exact ⟨d.name, .inr rfl⟩
    · split at h
      · rename_i hrest
        cases h
        exact interfaceScripts_eq_error hrest
      · cases h

end Scope

namespace Layout

theorem helpers_foldl_requireImport (path : Path) (ds : List Declaration) (r : Requirements) :
    (ds.foldl (fun r d => r.requireImport path [d.name]) r).helpers = r.helpers := by
  induction ds generalizing r with
  | nil => rfl
  | cons d ds ih =>
    rw [List.foldl_cons, ih]
    rfl

/-- Helpers kept in the order of definition stay so when others are required. -/
theorem helpers_foldl_requireHelper (hs known : List Helper) {r : Requirements}
    (h : r.helpers = Helper.all.filter (· ∈ known)) :
    (hs.foldl Requirements.requireHelper r).helpers =
      Helper.all.filter (· ∈ known ++ hs) := by
  induction hs generalizing known r with
  | nil => simpa using h
  | cons f hs ih =>
    have hnext : (r.requireHelper f).helpers = Helper.all.filter (· ∈ known ++ [f]) := by
      refine List.filter_congr fun g hg => ?_
      simp [h, hg, or_comm]
    rw [List.foldl_cons, ih _ hnext, List.append_assoc, List.singleton_append]

/-- **The helpers needed** are those noted, each once, in the order of definition. -/
theorem helpers_requirements (u : SourceUnit) (hs : List Helper) :
    (requirements u hs).helpers = Helper.all.filter (· ∈ hs) := by
  refine helpers_foldl_requireHelper hs [] ?_
  rw [helpers_foldl_requireImport]
  simp [Requirements.none]

/-- The helpers noted are among those that a unit needs. -/
theorem mem_requirements {u : SourceUnit} {hs : List Helper} {h : Helper} (hh : h ∈ hs) :
    h ∈ (requirements u hs).helpers := by
  have hall : h ∈ Helper.all := by cases h <;> simp [Helper.all]
  rw [helpers_requirements]
  exact List.mem_filter.2 ⟨hall, by simpa using hh⟩

/-- What a unit's script is made of, and what it needs. -/
theorem script_of_build {l : Layout} {c : Catalog} {u : SourceUnit} {g : GeneratedUnit}
    {ws : List Diagnostic} (h : l.build c u = .ok (g, ws)) :
    ∃ n, (Scope.start c u).interfaceScripts u.interfaces = .ok (g.script.interfaces, n) ∧
      importBlocks (l.directoryOf g.outFile) (requirements u n.helpers).imports.entries =
        .ok g.script.imports ∧
      g.requirements = requirements u n.helpers ∧
      g.script.helpers = g.requirements.helpers := by
  obtain ⟨out, -, h⟩ := bind_eq_ok.1 h
  obtain ⟨⟨is, n⟩, his, h⟩ := bind_eq_ok.1 h
  obtain ⟨imports, himports, h⟩ := bind_eq_ok.1 h
  cases h
  exact ⟨n, his, himports, rfl, rfl⟩

/-- **The script of a unit** is made of the scripts of its interfaces and of the helpers noted, and
    the output is its text. -/
theorem build_eq_ok {l : Layout} {c : Catalog} {u : SourceUnit} {g : GeneratedUnit}
    {ws : List Diagnostic} (h : l.build c u = .ok (g, ws)) :
    ∃ n, (Scope.start c u).interfaceScripts u.interfaces = .ok (g.script.interfaces, n) ∧
      g.script.helpers = (requirements u n.helpers).helpers ∧
      g.contents = g.script.code.text l.indent ∧ ws = n.warnings := by
  obtain ⟨out, -, h⟩ := bind_eq_ok.1 h
  obtain ⟨⟨is, n⟩, his, h⟩ := bind_eq_ok.1 h
  obtain ⟨imports, -, h⟩ := bind_eq_ok.1 h
  cases h
  exact ⟨n, his, rfl, rfl, rfl⟩

theorem source_of_build {l : Layout} {c : Catalog} {u : SourceUnit} {g : GeneratedUnit}
    {ws : List Diagnostic} (h : l.build c u = .ok (g, ws)) : g.source = u.path := by
  obtain ⟨out, -, h⟩ := bind_eq_ok.1 h
  obtain ⟨⟨is, n⟩, -, h⟩ := bind_eq_ok.1 h
  obtain ⟨imports, -, h⟩ := bind_eq_ok.1 h
  cases h
  rfl

theorem outFile_ne_synthesis {l : Layout} {unit path : Path} {declaration : String}
    {e : SynthesisError} : l.outFile unit ≠ .error (.synthesis path declaration e) := by
  unfold outFile
  split
  · nofun
  · split <;> nofun

/-- Imports fail for a module that no specifier leads to. -/
theorem importBlocks_eq_error {directory : Path} {e : GenerateError} :
    ∀ {entries : List (String × List String)}, importBlocks directory entries = .error e →
      ∃ entry ∈ entries, directory.moduleSpecifier? ⟨entry.1⟩ = none ∧
        e = .unrelatedPaths directory ⟨entry.1⟩
  | [], h => by cases h
  | (source, symbols) :: rest, h => by
    rw [importBlocks] at h
    split at h
    · rename_i hnone
      cases h
      exact ⟨_, List.mem_cons_self .., hnone, rfl⟩
    · rcases bind_eq_error.1 h with h | ⟨_, -, h⟩
      · obtain ⟨entry, hentry, hnone, he⟩ := importBlocks_eq_error h
        exact ⟨entry, List.mem_cons_of_mem _ hentry, hnone, he⟩
      · cases h

/-- A unit for which no code can be made has an interface for which none can be made. -/
theorem interfaceScripts_of_build {l : Layout} {c : Catalog} {u : SourceUnit} {path : Path}
    {declaration : String} {e : SynthesisError}
    (h : l.build c u = .error (.synthesis path declaration e)) :
    (Scope.start c u).interfaceScripts u.interfaces =
      .error (.synthesis path declaration e) := by
  rcases bind_eq_error.1 h with h | ⟨out, -, h⟩
  · exact absurd h outFile_ne_synthesis
  · rcases bind_eq_error.1 h with h | ⟨⟨is, n⟩, -, h⟩
    · exact h
    · rcases bind_eq_error.1 h with h | ⟨_, -, h⟩
      · obtain ⟨_, -, -, he⟩ := importBlocks_eq_error h
        cases he
      · cases h

/-- **Why no output is made for a unit**: its output has no place, no code can be made for one of
    its interfaces, or it cannot be imported. -/
theorem build_eq_error {l : Layout} {c : Catalog} {u : SourceUnit} {e : GenerateError}
    (h : l.build c u = .error e) :
    l.outFile u.path = .error e ∨
      (∃ declaration, (∃ source, e = .synthesis u.path declaration source) ∨
        e = .endless u.path declaration) ∨
      ∃ out helpers, l.outFile u.path = .ok out ∧
        ∃ entry ∈ (requirements u helpers).imports.entries,
          (l.directoryOf out).moduleSpecifier? ⟨entry.1⟩ = none ∧
          e = .unrelatedPaths (l.directoryOf out) ⟨entry.1⟩ := by
  rcases bind_eq_error.1 h with h | ⟨out, hout, h⟩
  · exact .inl h
  · rcases bind_eq_error.1 h with h | ⟨⟨is, n⟩, -, h⟩
    · exact .inr (.inl (Scope.interfaceScripts_eq_error h))
    · rcases bind_eq_error.1 h with h | ⟨_, -, h⟩
      · exact .inr (.inr ⟨out, n.helpers, hout, importBlocks_eq_error h⟩)
      · cases h

end Layout

end InterfaceGuards
