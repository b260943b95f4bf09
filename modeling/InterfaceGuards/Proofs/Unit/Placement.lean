/-
  Where the output of a unit goes.

  * `Path.directory`: the directory that a unit lies in.
  * `Layout.KeepsBelow`: a path of names, and hence below the destination.
  * `outFile_of_inside`, `outFile_of_apart`, `exists_outFile_of_astray`: the place of an output, for
    units inside of the root, outside of it and astray.
  * `outFile_isPlain`: below an absolute root every output goes to a path of names.
  * `build_keeps_below_iff`: outputs go below the destination, and units outside of the root are
    refused, unless they are astray.
-/
import InterfaceGuards.Proofs.Path.Plain
import InterfaceGuards.Proofs.Path.Shape
import InterfaceGuards.Proofs.Unit.Build

namespace InterfaceGuards

namespace Path

variable {p root : Path} {name : String}

/-- The directory that a file lies in. -/
def directory (p : Path) : Path := p.parent?.getD .empty

/-- A name alone is the path of one step. -/
theorem eq_ofComponents_name (h : (Component.name name).IsStep) :
    (⟨name⟩ : Path) = ofComponents [.name name] := by
  rw [ofComponents_steps (by simpa using h)]
  simp [ofSegments, segmentsOf, Text.intercalate, Lead.chars, Component.text]

theorem below?_of_prefix {rest : List Component} (h : p.normalSteps = root.normalSteps ++ rest) :
    p.below? root = some (ofComponents rest) := by
  have hprefix : root.normalSteps.isPrefixOf p.normalSteps :=
    List.isPrefixOf_iff_prefix.2 ⟨rest, h.symm⟩
  rw [below?, if_pos hprefix, h, List.drop_left]

theorem below?_eq_none (h : ¬root.normalSteps <+: p.normalSteps) : p.below? root = none := by
  rw [← List.isPrefixOf_iff_prefix] at h
  simp only [below?, if_neg h]

end Path

open InterfaceGuards.Path (Component ofComponents)

namespace Layout

variable {l : Layout} {c : Catalog} {u : SourceUnit} {unit out : Path} {name : String}
  {names : List String} {g : GeneratedUnit} {ws : List Diagnostic}

/-! ## The place of an output -/

theorem outFile_of_nameless (h : unit.fileName? = none) :
    l.outFile unit = .error (.invalidUnitPath unit) := by
  simp only [outFile, h]

theorem outFile_of_below {rest : Path} (hname : unit.fileName? = some name)
    (h : unit.directory.below? l.rootDir = some rest) :
    l.outFile unit = .ok (rest.join ⟨name⟩) := by
  rw [Path.directory] at h
  simp only [outFile, hname, h]

theorem isStep_of_inside (hname : unit.fileName? = some name)
    (h : unit.directory.normalSteps = l.rootDir.normalSteps ++ names.map .name) :
    ∀ c ∈ (names ++ [name]).map Component.name, c.IsStep := by
  rw [List.map_append, List.forall_mem_append, List.forall_mem_map]
  refine ⟨fun n hn => ?_, by simpa using Path.isStep_of_fileName? hname⟩
  have hmem : Component.name n ∈ unit.directory.normalSteps := by
    rw [h]
    exact List.mem_append_right _ (List.mem_map_of_mem hn)
  exact Path.isStep_of_mem_normalSteps hmem

/-- **The output of a unit inside of the root** is called like the unit, and goes where the unit is
    below the root. -/
theorem outFile_of_inside (hname : unit.fileName? = some name)
    (h : unit.directory.normalSteps = l.rootDir.normalSteps ++ names.map .name) :
    l.outFile unit = .ok (ofComponents ((names ++ [name]).map .name)) := by
  have hsteps := isStep_of_inside hname h
  rw [List.map_append, List.map_singleton, List.forall_mem_append] at hsteps
  rw [outFile_of_below hname (Path.below?_of_prefix h),
    Path.eq_ofComponents_name (Path.isStep_of_fileName? hname),
    Path.join_ofComponents_steps hsteps.1 hsteps.2 (by simp), List.map_append, List.map_singleton]

/-- **A unit that does not begin with the steps of the root** is refused. -/
theorem outFile_of_apart (hname : unit.fileName? = some name)
    (h : ¬l.rootDir.normalSteps <+: unit.directory.normalSteps) :
    l.outFile unit = .error (.outsideRoot unit l.rootDir) := by
  have hbelow := Path.below?_eq_none h
  rw [Path.directory] at hbelow
  simp only [outFile, hname, hbelow]

/-- A unit that begins with the steps of the root has a place, also when it is astray. -/
theorem exists_outFile_of_astray (hname : unit.fileName? = some name)
    (h : unit.directory.Astray l.rootDir) : ∃ out, l.outFile unit = .ok out := by
  obtain ⟨c, rest, hrest, -⟩ := h
  exact ⟨_, outFile_of_below hname (Path.below?_of_prefix hrest)⟩

/-! ## Below the destination -/

/-- A path of names leads below the destination: the normal form of the destination has these names
    put behind. -/
def KeepsBelow (l : Layout) (out : Path) : Prop :=
  out.IsPlain ∧
    (l.destination.join out).normalSteps = l.destination.normalSteps ++ out.names.map .name

theorem keepsBelow_of_isPlain (h : out.IsPlain) : l.KeepsBelow out := by
  have hjoin := Path.normalSteps_join_names (Path.isStep_of_mem_names (p := out)) l.destination
  rw [← h.2] at hjoin
  exact ⟨h, hjoin⟩

theorem keepsBelow_of_inside (hname : unit.fileName? = some name)
    (hin : unit.directory.Inside l.rootDir) (h : l.outFile unit = .ok out) : l.KeepsBelow out := by
  obtain ⟨names, hnames⟩ := hin
  rw [outFile_of_inside hname hnames] at h
  cases h
  have hsteps := isStep_of_inside hname hnames
  exact keepsBelow_of_isPlain (Path.isPlain_ofComponents (by simp) hsteps).1

/-- **Whatever is not astray has its output below the destination**, if it has one. -/
theorem keepsBelow_of_outFile (hastray : ¬unit.directory.Astray l.rootDir)
    (h : l.outFile unit = .ok out) : l.KeepsBelow out := by
  cases hname : unit.fileName? with
  | none =>
    rw [outFile_of_nameless hname] at h
    cases h
  | some name =>
    by_cases hprefix : l.rootDir.normalSteps <+: unit.directory.normalSteps
    · exact keepsBelow_of_inside hname ((Path.inside_or_astray hprefix).resolve_right hastray) h
    · rw [outFile_of_apart hname hprefix] at h
      cases h

/-- **Below an absolute root a unit's output goes to a path of names.** -/
theorem outFile_isPlain (hroot : l.rootDir.isAbsolute) (h : l.outFile unit = .ok out) :
    out.IsPlain :=
  (keepsBelow_of_outFile (Path.not_astray_of_isAbsolute hroot) h).1

/-! ## Builds -/

theorem outFile_of_build (h : l.build c u = .ok (g, ws)) : l.outFile u.path = .ok g.outFile := by
  obtain ⟨out, hout, h⟩ := bind_eq_ok.1 h
  obtain ⟨⟨_, _⟩, -, h⟩ := bind_eq_ok.1 h
  obtain ⟨_, -, h⟩ := bind_eq_ok.1 h
  cases h
  exact hout

theorem build_of_outFile_error {e : GenerateError} (h : l.outFile u.path = .error e) :
    l.build c u = .error e :=
  bind_eq_error.2 (.inl h)

/-- A unit whose output has a place is not refused for lying outside of the root. -/
theorem build_ne_outsideRoot {path root : Path} (h : l.outFile u.path = .ok out) :
    l.build c u ≠ .error (.outsideRoot path root) := by
  intro herror
  rcases build_eq_error herror with hout | ⟨_, ⟨_, he⟩ | he⟩ | ⟨_, _, -, _, -, -, he⟩
  · rw [h] at hout
    cases hout
  · cases he
  · cases he
  · cases he

/-- **Outputs go below the destination, and units outside of the root are refused as such**, exactly
    for units that are not astray, and that have a file name if they lie outside. -/
theorem build_keeps_below_iff (l : Layout) (c : Catalog) (u : SourceUnit) :
    ((∀ g ws, l.build c u = .ok (g, ws) → l.KeepsBelow g.outFile) ∧
        (¬u.path.directory.Inside l.rootDir →
          l.build c u = .error (.outsideRoot u.path l.rootDir))) ↔
      ¬u.path.directory.Astray l.rootDir ∧
        (u.path.fileName? = none → u.path.directory.Inside l.rootDir) := by
  constructor
  · rintro ⟨-, hrefused⟩
    refine ⟨fun hastray => ?_, fun hnone => by_contra fun hout => ?_⟩
    · have hbuild := hrefused fun hin => hin.not_astray hastray
      cases hname : u.path.fileName? with
      | none =>
        rw [build_of_outFile_error (outFile_of_nameless hname)] at hbuild
        cases hbuild
      | some name =>
        obtain ⟨out, hout⟩ := exists_outFile_of_astray hname hastray
        exact build_ne_outsideRoot hout hbuild
    · have hbuild := hrefused hout
      rw [build_of_outFile_error (outFile_of_nameless hnone)] at hbuild
      cases hbuild
  · rintro ⟨hastray, hnone⟩
    refine ⟨fun g ws h => keepsBelow_of_outFile hastray (outFile_of_build h), fun hout => ?_⟩
    cases hname : u.path.fileName? with
    | none => exact absurd (hnone hname) hout
    | some name =>
      refine build_of_outFile_error (outFile_of_apart hname fun hprefix => ?_)
      exact (Path.inside_or_astray hprefix).elim hout hastray

/-- **Units outside of the root whose outputs leave the destination**: one that climbs out of a root
    without steps, and one that does not start there, whose output is the unit itself. -/
theorem astray_units_escape :
    let l : Layout := ⟨⟨"."⟩, ⟨"schema"⟩, .standard⟩
    let climbing : SourceUnit := ⟨⟨"../x/a.ts"⟩, [⟨"A", .interfaceType, [], []⟩]⟩
    let absolute : SourceUnit := ⟨⟨"/x/a.ts"⟩, [⟨"A", .interfaceType, [], []⟩]⟩
    (¬climbing.path.directory.Inside l.rootDir ∧
      ∃ g ws, l.build ⟨[climbing]⟩ climbing = .ok (g, ws) ∧ g.outFile = ⟨"../x/a.ts"⟩ ∧
        (l.destination.join g.outFile).normalSteps = [.name "x", .name "a.ts"]) ∧
    (¬absolute.path.directory.Inside l.rootDir ∧
      ∃ g ws, l.build ⟨[absolute]⟩ absolute = .ok (g, ws) ∧
        l.destination.join g.outFile = absolute.path) := by
  intro l climbing absolute
  have hclimbing : climbing.path.directory.Astray l.rootDir :=
    ⟨.parent, [.name "x"], by decide +kernel, .inl rfl⟩
  have habsolute : absolute.path.directory.Astray l.rootDir :=
    ⟨.root, [.name "x"], by decide +kernel, .inr rfl⟩
  have hbuilt : ∀ u : SourceUnit, (l.build ⟨[u]⟩ u).isOk → l.outFile u.path = .ok u.path →
      ∃ g ws, l.build ⟨[u]⟩ u = .ok (g, ws) ∧ g.outFile = u.path := by
    intro u hok hout
    obtain ⟨⟨g, ws⟩, hbuild⟩ := exists_ok_of_isOk hok
    rw [outFile_of_build hbuild] at hout
    exact ⟨g, ws, hbuild, Except.ok.inj hout⟩
  obtain ⟨g, ws, hbuild, hout⟩ := hbuilt climbing (by decide +kernel) (by decide +kernel)
  obtain ⟨g', ws', hbuild', hout'⟩ := hbuilt absolute (by decide +kernel) (by decide +kernel)
  refine ⟨⟨fun hin => hin.not_astray hclimbing, g, ws, hbuild, hout, ?_⟩,
    fun hin => hin.not_astray habsolute, g', ws', hbuild', ?_⟩
  · rw [hout]
    decide +kernel
  · rw [hout']
    decide +kernel

end Layout

end InterfaceGuards
