/-
  The imports of an output.

  * `entries_requirements`: a unit with interfaces is imported by its output, and nothing else is.
  * `Layout.exists_directory`: the directory of an output has the normal form of the one that its
    imports are made for.
  * `GeneratedUnit.LeadsHome`: an output that imports its unit.
  * `leadsHome_of_build`, `build_ne_unrelatedPaths`: where all paths are absolute every output does,
    and none fails for its imports.
-/
import InterfaceGuards.Proofs.Code.Imports
import InterfaceGuards.Proofs.Path.Relative
import InterfaceGuards.Proofs.Unit.Placement

namespace InterfaceGuards

open InterfaceGuards.Path (Component Leads ofComponents)

namespace Layout

variable {l : Layout} {c : Catalog} {u : SourceUnit} {out directory : Path} {g : GeneratedUnit}
  {ws : List Diagnostic}

/-! ## Requirements -/

theorem imports_foldl_requireHelper (helpers : List Script.Helper) (r : Requirements) :
    (helpers.foldl Requirements.requireHelper r).imports = r.imports := by
  induction helpers generalizing r with
  | nil => rfl
  | cons h helpers ih =>
    rw [List.foldl_cons, ih]
    rfl

/-- Further symbols of the one module that was mentioned. -/
theorem entries_foldl_requireImport {path : Path} (ds : List Declaration) {r : Requirements}
    {symbols : List String} (h : r.imports.entries = [(path.text, symbols)]) :
    (ds.foldl (fun r d => r.requireImport path [d.name]) r).imports.entries =
      [(path.text, (ds.map (·.name)).foldl Code.appendNew symbols)] := by
  induction ds generalizing r symbols with
  | nil => exact h
  | cons d ds ih =>
    have hnext : (r.requireImport path [d.name]).imports.entries =
        [(path.text, [d.name].foldl Code.appendNew symbols)] := by
      simp [Requirements.requireImport, Code.Imports.addAll, Code.Imports.addTo, h]
    exact ih hnext

/-- **A unit with interfaces is needed for its output**, each of them by its name, and no other file
    is. -/
theorem entries_requirements (u : SourceUnit) (helpers : List Script.Helper) :
    (u.interfaces = [] ∧ (requirements u helpers).imports.entries = []) ∨
      (u.interfaces ≠ [] ∧ (requirements u helpers).imports.entries =
        [(u.path.text, (u.interfaces.map (·.name)).eraseDups)]) := by
  rw [requirements, imports_foldl_requireHelper, ← Code.foldl_appendNew]
  cases u.interfaces with
  | nil => exact .inl ⟨rfl, rfl⟩
  | cons d ds =>
    have hfirst : (Requirements.none.requireImport u.path [d.name]).imports.entries =
        [(u.path.text, [d.name])] := rfl
    exact .inr ⟨nofun, entries_foldl_requireImport ds hfirst⟩

/-! ## Directories -/

theorem isAbsolute_directoryOf (h : l.destination.isAbsolute) (out : Path) :
    (l.directoryOf out).isAbsolute :=
  Path.isAbsolute_join h _

/-- **The directory that an output lies in** is the one that its imports are made for, up to
    spelling. -/
theorem exists_directory (h : l.destination.isAbsolute) (hout : out.IsPlain) :
    ∃ directory, (l.destination.join out).parent? = some directory ∧ directory.isAbsolute ∧
      directory.normalSteps = (l.directoryOf out).normalSteps := by
  obtain ⟨before, n, hnames⟩ : ∃ before n, out.names = before ++ [n] := by
    simpa using (List.eq_nil_or_concat out.names).resolve_left hout.1
  have hsteps := Path.isStep_of_mem_names (p := out)
  have hspell := hout.2
  rw [hnames] at hsteps hspell
  have hbefore : ∀ c ∈ before.map Component.name, c.IsStep := fun c hc => hsteps c (by simp_all)
  have hstrides : (l.destination.join out).strides =
      (l.destination.strides ++ before.map .name) ++ [.name n] := by
    rw [hspell, Path.strides_join (Path.not_isAbsolute_steps hsteps), Path.strides_steps hsteps]
    simp
  obtain ⟨directory, hparent, habs, hd⟩ :=
    Path.exists_parent? (Path.isAbsolute_join h out) hstrides
  have hof : (l.directoryOf out).strides = l.destination.strides ++ before.map .name := by
    rw [directoryOf, hspell, Path.parent?_names hsteps, Option.getD_some,
      Path.strides_join (Path.not_isAbsolute_steps hbefore), Path.strides_steps hbefore]
  refine ⟨directory, hparent, habs, ?_⟩
  rw [Path.normalSteps_eq habs, Path.normalSteps_eq (isAbsolute_directoryOf h out),
    Path.place_eq_strides, Path.place_eq_strides, hd, hof]

/-! ## Imports -/

theorem importBlocks_singleton {module specifier : String} {symbols : List String}
    (h : directory.moduleSpecifier? ⟨module⟩ = some specifier) :
    importBlocks directory [(module, symbols)] = .ok [⟨specifier, symbols⟩] := by
  simp only [importBlocks, h]
  rfl

end Layout

/-- An output that imports its unit: if the unit has interfaces there is one import, and it leads
    from the directory that the output lies in to the unit without its source extension. -/
structure GeneratedUnit.LeadsHome (g : GeneratedUnit) (u : SourceUnit) (destination : Path) :
    Prop where
  imported : u.interfaces ≠ [] → ∃ i, g.script.imports = [i]
  leads : ∃ directory, (destination.join g.outFile).parent? = some directory ∧
    ∀ i ∈ g.script.imports, Leads i.source directory u.path.withoutSourceExtension

namespace Layout

variable {l : Layout} {c : Catalog} {u : SourceUnit} {g : GeneratedUnit} {ws : List Diagnostic}

/-- **Every output imports its unit**, where all paths are absolute. -/
theorem leadsHome_of_build (hroot : l.rootDir.isAbsolute) (hdest : l.destination.isAbsolute)
    (hu : u.path.isAbsolute) (h : l.build c u = .ok (g, ws)) : g.LeadsHome u l.destination := by
  have hplain := outFile_isPlain hroot (outFile_of_build h)
  obtain ⟨directory, hparent, -, hsame⟩ := exists_directory hdest hplain
  obtain ⟨specifier, hspecifier, hleads⟩ :=
    Path.exists_moduleSpecifier? (isAbsolute_directoryOf hdest g.outFile) hu
  obtain ⟨n, -, himports, -⟩ := script_of_build h
  rcases entries_requirements u n.helpers with ⟨hnone, hentries⟩ | ⟨-, hentries⟩
  · rw [hentries] at himports
    have hnil : g.script.imports = [] := (Except.ok.inj himports).symm
    refine ⟨fun hsome => absurd hnone hsome, directory, hparent, fun i hi => ?_⟩
    rw [hnil] at hi
    cases hi
  · rw [hentries, importBlocks_singleton hspecifier] at himports
    have hone := (Except.ok.inj himports).symm
    refine ⟨fun _ => ⟨_, hone⟩, directory, hparent, fun i hi => ?_⟩
    rw [hone, List.mem_singleton] at hi
    rw [hi]
    exact fun here hhere => hleads here (hhere.trans hsame)

/-- **No output fails for its imports**, where all paths are absolute. -/
theorem build_ne_unrelatedPaths {source target : Path} (hdest : l.destination.isAbsolute)
    (hu : u.path.isAbsolute) : l.build c u ≠ .error (.unrelatedPaths source target) := by
  intro h
  rcases build_eq_error h with hout | ⟨_, ⟨_, he⟩ | he⟩ | ⟨out, helpers, -, entry, hentry, hnone, -⟩
  · unfold outFile at hout
    split at hout
    · cases hout
    · split at hout <;> cases hout
  · cases he
  · cases he
  · obtain ⟨specifier, hspecifier, -⟩ :=
      Path.exists_moduleSpecifier? (isAbsolute_directoryOf hdest out) hu
    have hunit : entry.1 = u.path.text := by
      rcases entries_requirements u helpers with ⟨-, hentries⟩ | ⟨-, hentries⟩
      · simp [hentries] at hentry
      · rw [hentries, List.mem_singleton] at hentry
        rw [hentry]
    rw [hunit, hspecifier] at hnone
    cases hnone

end Layout

end InterfaceGuards
