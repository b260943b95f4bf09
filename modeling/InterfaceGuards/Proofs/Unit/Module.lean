/-
  The modules that the imports of outputs name.

  * `Layout.import_names_module_iff`: an output imports the module of its unit, unless it lies in the
    unit without its extension.
  * `import_of_own_directory`: an output that imports the directory that it lies in.
-/
import InterfaceGuards.Proofs.Path.Module
import InterfaceGuards.Proofs.Unit.Contents

namespace InterfaceGuards

namespace Layout

open InterfaceGuards.Path (lastSegment? DesignatesDirectory)

variable {l : Layout} {c : Catalog} {u : SourceUnit} {g : GeneratedUnit} {ws : List Diagnostic}
  {stem : String}

/-- **When the import of an output names its module.**  The specifier ends in the stem of the unit,
    leads to the unit with the extension of the unit behind it, and designates no directory, unless
    the output lies in the unit without its extension; and then none of these holds. -/
theorem import_names_module_iff (hroot : l.rootDir.isAbsolute) (hdest : l.destination.isAbsolute)
    (hu : u.path.isAbsolute) (heligible : u.path.isEligible) (hstem : u.path.stem? = some stem)
    (hdot : stem ≠ ".") (hdots : stem ≠ "..") (h : l.build c u = .ok (g, ws))
    (hsome : u.interfaces ≠ []) :
    ∃ specifier names extension directory, g.script.imports = [⟨specifier, names⟩] ∧
      u.path.extension? = some extension ∧
      (l.destination.join g.outFile).parent? = some directory ∧
      (lastSegment? specifier = some stem ↔
        ¬directory.Inside u.path.withoutSourceExtension) ∧
      ((directory.join ⟨specifier ++ "." ++ extension⟩).normalSteps = u.path.normalSteps ↔
        ¬directory.Inside u.path.withoutSourceExtension) ∧
      (DesignatesDirectory specifier ↔ directory.Inside u.path.withoutSourceExtension) := by
  have hplain := outFile_isPlain hroot (outFile_of_build h)
  obtain ⟨directory, hparent, hd, hsame⟩ := exists_directory hdest hplain
  obtain ⟨specifier, hspecifier, himports⟩ := imports_of_build h hsome
  have hkind : directory.isAbsolute = (l.directoryOf g.outFile).isAbsolute := by
    rw [hd, isAbsolute_directoryOf hdest]
  rw [← Path.moduleSpecifier?_congr hkind hsame] at hspecifier
  obtain ⟨before, extension, hextension, hsource, hnil, hplace, hshort⟩ :=
    Path.place_withoutSourceExtension hu heligible hstem hdot hdots
  have hlast := Path.lastSegment?_eq_stem_iff hu hspecifier hshort hnil hdots
  refine ⟨specifier, _, extension, directory, himports, hextension, hparent, hlast, ?_,
    Path.designatesDirectory_iff hu hspecifier hshort hnil hdot hdots⟩
  rw [← hlast]
  exact Path.extended_leads_iff hd hu hspecifier hsource hplace hshort
    (Path.componentOf?_name hnil hdot hdots)

/-- The import of a unit with a dot in its stem names it, as its output lies elsewhere. -/
theorem import_names_module_apart :
    let l : Layout := ⟨⟨"/p/src"⟩, ⟨"/p/gen"⟩, .standard⟩
    let u : SourceUnit := ⟨⟨"/p/./src/m/a.b.ts"⟩, [⟨"A", .interfaceType, [], []⟩]⟩
    u.path.isEligible ∧ u.path.stem? = some "a.b" ∧
      ∃ g ws specifier names directory, l.build ⟨[u]⟩ u = .ok (g, ws) ∧
        g.script.imports = [⟨specifier, names⟩] ∧
        (l.destination.join g.outFile).parent? = some directory ∧
        lastSegment? specifier = some "a.b" ∧ ¬DesignatesDirectory specifier ∧
        (directory.join ⟨specifier ++ "." ++ "ts"⟩).normalSteps = u.path.normalSteps := by
  intro l u
  have heligible : u.path.isEligible := by decide +kernel
  have hstem : u.path.stem? = some "a.b" := by decide +kernel
  have hbuilt : ((l.build ⟨[u]⟩ u).map (·.1.outFile)) = .ok ⟨"m/a.b.ts"⟩ := by decide +kernel
  obtain ⟨⟨g, ws⟩, h, hout⟩ := map_eq_ok.1 hbuilt
  obtain ⟨specifier, names, extension, directory, himports, hextension, hparent, hlast, hleads,
    hdirectory⟩ := import_names_module_iff (by decide) (by decide) (by decide) heligible hstem
      (by decide) (by decide) h (List.cons_ne_nil _ _)
  have hts : u.path.extension? = some "ts" := by decide +kernel
  obtain rfl : extension = "ts" := Option.some.inj (hextension.symm.trans hts)
  have hplace : directory = ⟨"/p/gen/m"⟩ := by
    have hcomputed : (l.destination.join ⟨"m/a.b.ts"⟩).parent? = some ⟨"/p/gen/m"⟩ := by
      decide +kernel
    rw [hout, hcomputed] at hparent
    exact (Option.some.inj hparent).symm
  have hapart : ¬directory.Inside u.path.withoutSourceExtension := by
    rintro ⟨inner, hinner⟩
    have hprefix : u.path.withoutSourceExtension.normalSteps.isPrefixOf
        directory.normalSteps := by
      rw [List.isPrefixOf_iff_prefix, hinner]
      exact List.prefix_append _ _
    rw [hplace] at hprefix
    exact absurd hprefix (by decide +kernel)
  exact ⟨heligible, hstem, g, ws, specifier, names, directory, h, himports, hparent,
    hlast.2 hapart, fun hd => hapart (hdirectory.1 hd), hleads.2 hapart⟩

/-- The output of `schema.ts` that lies in a directory `schema` beside it imports `./`, which is that
    directory. -/
theorem import_of_own_directory :
    let l : Layout := ⟨⟨"/p"⟩, ⟨"/p/schema"⟩, .standard⟩
    let u : SourceUnit := ⟨⟨"/p/schema.ts"⟩, [⟨"A", .interfaceType, [], []⟩]⟩
    u.path.isEligible ∧ u.path.stem? = some "schema" ∧ u.path.extension? = some "ts" ∧
      ∃ g ws, l.build ⟨[u]⟩ u = .ok (g, ws) ∧ g.script.imports = [⟨"./", ["A"]⟩] ∧
        (l.destination.join g.outFile).parent? = some ⟨"/p/schema"⟩ ∧
        lastSegment? "./" = some "" ∧ DesignatesDirectory "./" ∧
        ((⟨"/p/schema"⟩ : Path).join ⟨"./" ++ "." ++ "ts"⟩).normalSteps ≠ u.path.normalSteps := by
  intro l u
  have hbuilt : ((l.build ⟨[u]⟩ u).map (·.1.outFile)) = .ok ⟨"schema.ts"⟩ := by decide +kernel
  obtain ⟨⟨g, ws⟩, h, hout⟩ := map_eq_ok.1 hbuilt
  obtain ⟨specifier, hspecifier, himports⟩ := imports_of_build h (List.cons_ne_nil _ _)
  have hwritten : (l.directoryOf ⟨"schema.ts"⟩).moduleSpecifier? u.path = some "./" := by
    decide +kernel
  rw [hout, hwritten, Option.some.injEq] at hspecifier
  subst hspecifier
  refine ⟨by decide +kernel, by decide +kernel, by decide +kernel, g, ws, h, himports, ?_, rfl,
    ⟨"", rfl, .inl rfl⟩, by decide +kernel⟩
  rw [hout]
  decide +kernel

end Layout

end InterfaceGuards
