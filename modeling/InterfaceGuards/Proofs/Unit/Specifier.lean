/-
  What the import of an output means.

  * `Import.opening`: an import block up to the quote that opens the literal of its module; no quote
    stands in it (`not_quote_mem_opening`).
  * `GeneratedUnit.ImportsBy`: an output that starts with one import block, for its unit, and the
    specifier that stands between the quotes there.
  * `Project.import_means_iff`: the quoted text is one literal for the specifier just when nothing in
    the specifier needs an escape; so it is for every unit in whose path nothing does.
  * `import_of_quoted_path`: the import of a unit with a quote in its path.
-/
import InterfaceGuards.Proofs.Factory.Unit
import InterfaceGuards.Proofs.Path.Alphabet
import InterfaceGuards.Proofs.Text.Verbatim
import InterfaceGuards.Proofs.Unit.Bracket
import InterfaceGuards.Proofs.Unit.Generation

namespace InterfaceGuards

open Text (Opens escapedChars)

/-! ## Import blocks -/

namespace Script.Import

/-- An import block of some names up to the quote that opens the literal of its module. -/
def opening (names : List String) : Code :=
  Code.block "import \x7b\n" (names.map fun name => .line 0 (name ++ ",\n")) "\x7d" ++
    [.raw " from "]

theorem text_code (i : Import) (indent : Code.Indent) : i.code.text indent =
    (opening i.names).text indent ++ "'" ++ i.source ++ "'" ++ ";\n" := by
  have hraw : ∀ t : String, Code.text indent [.raw t] = t := fun t => by
    simp [Code.text, Code.Piece.text]
  have hbefore : " from '" = " from " ++ "'" := rfl
  have hbehind : "';\n" = "'" ++ ";\n" := rfl
  rw [code, opening, Code.text_append, Code.text_append, hraw, hraw, hbefore, hbehind]
  simp only [String.append_assoc]

/-! ### Quotes -/

theorem not_quote_of_properName {name : String} (h : Manifest.ProperName name) :
    '\'' ∉ name.toList := by
  obtain ⟨-, c, rest, hname, hc, hrest⟩ := h
  have hquote : Manifest.isIdentifierPart '\'' = false := by decide
  intro hmem
  rw [hname] at hmem
  have hpart : Manifest.isIdentifierPart '\'' := by
    refine Manifest.isIdentifierPart_iff.2 ?_
    rcases List.mem_cons.1 hmem with heq | hmem
    · exact .inl (heq ▸ hc)
    · exact hrest _ hmem
  rw [hquote] at hpart
  cases hpart

theorem not_quote_mem_levels (indent : Code.Indent) (depth : Nat) :
    '\'' ∉ (indent.levels depth).toList := by
  have hunit : '\'' ∉ indent.unit.toList := by
    cases indent with
    | spaces width =>
      rw [Code.Indent.unit, String.toList_ofList]
      intro hmem
      cases List.eq_of_mem_replicate hmem
    | tab => decide
  unfold Code.Indent.levels
  induction depth with
  | zero => simp
  | succ depth ih =>
    rw [List.replicate_succ, String.join_cons, String.toList_append, List.mem_append]
    exact fun h => h.elim hunit ih

/-- No quote is in the text of a line that is written without one. -/
theorem not_quote_mem_line (indent : Code.Indent) (depth : Nat) {t : String}
    (h : '\'' ∉ t.toList) : '\'' ∉ ((Code.Piece.line depth t).text indent).toList := by
  rw [Code.Piece.text, String.toList_append, List.mem_append]
  exact fun hmem => hmem.elim (not_quote_mem_levels indent depth) h

/-- **No quote stands before the one that opens the literal of the module.** -/
theorem not_quote_mem_opening {names : List String} (h : ∀ n ∈ names, Manifest.ProperName n)
    (indent : Code.Indent) : '\'' ∉ ((opening names).text indent).toList := by
  have hpiece : ∀ piece ∈ opening names, '\'' ∉ (piece.text indent).toList := by
    intro piece hpiece
    simp only [opening, Code.block, Code.deeper, Code.shift, List.cons_append, List.map_map,
      List.append_assoc, List.nil_append, List.mem_cons, List.mem_append, List.mem_map,
      List.not_mem_nil, or_false] at hpiece
    rcases hpiece with rfl | ⟨n, hn, rfl⟩ | rfl | rfl
    · exact not_quote_mem_line indent 0 (by decide)
    · refine not_quote_mem_line indent (0 + 1) ?_
      simpa using not_quote_of_properName (h n hn)
    · exact not_quote_mem_line indent 0 (by decide)
    · simp [Code.Piece.text]
  rw [Code.text, String.toList_join]
  simpa using hpiece

end Script.Import

/-! ## Outputs -/

/-- An output that imports its unit by a specifier, which stands behind the first quote of the output
    and before a further one; what follows that one is the rest. -/
structure GeneratedUnit.ImportsBy (g : GeneratedUnit) (l : Layout) (specifier before rest : String) :
    Prop where
  /-- The specifier is the one that leads from the directory of the output to its source. -/
  computed : (l.directoryOf g.outFile).moduleSpecifier? g.source = some specifier
  /-- There is one import block in the script, and the output starts with it. -/
  block : ∃ names, g.script.imports = [⟨specifier, names⟩] ∧
    before = (Script.Import.opening names).text l.indent ∧
    rest = ";\n" ++ g.script.body.text l.indent
  contents : g.contents = before ++ "'" ++ specifier ++ "'" ++ rest
  unquoted : '\'' ∉ before.toList

namespace Layout

variable {l : Layout} {c : Catalog} {u : SourceUnit} {g : GeneratedUnit} {ws : List Diagnostic}

/-- The output for a unit with interfaces imports the unit by its specifier. -/
theorem importsBy_of_build (h : l.build c u = .ok (g, ws)) (hu : u.interfaces ≠ [])
    (hproper : ∀ d ∈ u.declarations, d.Proper) :
    ∃ specifier before rest, g.ImportsBy l specifier before rest := by
  obtain ⟨specifier, hspecifier, himports⟩ := imports_of_build h hu
  obtain ⟨n, -, -, hcontents, -⟩ := build_eq_ok h
  have hnames : ∀ n ∈ (u.interfaces.map (·.name)).eraseDups, Manifest.ProperName n := by
    intro n hn
    obtain ⟨d, hd, rfl⟩ := List.mem_map.1 (List.mem_eraseDups.1 hn)
    exact (hproper d (List.mem_of_mem_filter hd)).name
  refine ⟨specifier, _, _, ?_, ⟨_, himports, rfl, rfl⟩, ?_,
    Script.Import.not_quote_mem_opening hnames l.indent⟩
  · rw [source_of_build h]
    exact hspecifier
  · have hcode : g.script.code =
        (⟨specifier, (u.interfaces.map (·.name)).eraseDups⟩ : Script.Import).code ++
          g.script.body := by
      rw [UnitScript.code, UnitScript.body, himports]
      simp
    rw [hcontents, hcode, Code.text_append, Script.Import.text_code]
    simp only [String.append_assoc]

end Layout

/-- **When the import of an output means its specifier.**  The quoted text of the import is one
    literal for the specifier, on one line, just when the specifier holds no quote, no backslash and
    no line terminator; this is so for every unit in whose path none of these stands. -/
theorem Project.import_means_iff {text : String} {baseDir : Path} {p : Project}
    (hp : Project.load text baseDir = .ok p) {l : Layout} {selects : Path → Bool}
    {made : Generation} (h : l.generate p.catalog selects = .ok made) {g : GeneratedUnit}
    (hg : g ∈ made.units) :
    ∃ u ∈ p.catalog.units, g.source = u.path ∧
      ∃ specifier before rest, g.ImportsBy l specifier before rest ∧
        (Opens '\'' (specifier ++ "'" ++ rest).toList specifier rest.toList ↔
          ∀ c ∈ specifier.toList, c ∉ escapedChars) ∧
        ((∀ c ∈ u.path.text.toList, c ∉ escapedChars) →
          Opens '\'' (specifier ++ "'" ++ rest).toList specifier rest.toList) := by
  obtain ⟨u, hu, hsome, ws, hbuild⟩ := (Layout.buildAll_eq_ok_iff.1 h).exists_unit hg
  have hu : u ∈ p.catalog.units := List.mem_of_mem_filter hu
  have hsource := Layout.source_of_build hbuild
  obtain ⟨specifier, before, rest, hby⟩ :=
    Layout.importsBy_of_build hbuild hsome (Project.proper_of_load hp hu)
  have hiff : Opens '\'' (specifier ++ "'" ++ rest).toList specifier rest.toList ↔
      ∀ c ∈ specifier.toList, c ∉ escapedChars := by
    have hwritten : (specifier ++ "'" ++ rest).toList =
        specifier.toList ++ '\'' :: rest.toList := by
      simp
    rw [hwritten]
    exact Text.opens_iff specifier rest.toList
  refine ⟨u, hu, hsource, specifier, before, rest, hby, hiff, fun hpath => hiff.2 fun c hc => ?_⟩
  -- Besides the characters of the path there are only dots and slashes.
  have hcomputed := hby.computed
  rw [hsource] at hcomputed
  rcases Path.mem_of_moduleSpecifier? hcomputed c hc with rfl | rfl | hc
  · decide
  · decide
  · exact hpath c hc

/-- The import of a unit with a name of letters means its specifier. -/
theorem Project.import_means_node : Project.load nodeManifest ⟨""⟩ = .ok nodeProject ∧
    ∃ g ws, (⟨⟨""⟩, ⟨"out"⟩, .spaces 2⟩ : Layout).generate nodeProject.catalog (fun _ => true) =
        .ok ⟨[g], ws⟩ ∧
      ∃ specifier before rest, g.ImportsBy ⟨⟨""⟩, ⟨"out"⟩, .spaces 2⟩ specifier before rest ∧
        Opens '\'' (specifier ++ "'" ++ rest).toList specifier rest.toList := by
  have built : ((⟨⟨""⟩, ⟨"out"⟩, .spaces 2⟩ : Layout).build nodeProject.catalog
      nodeSource).isOk := by
    decide +kernel
  obtain ⟨⟨g, ws⟩, h⟩ := exists_ok_of_isOk built
  have made := Layout.generate_of_units (u := nodeSource) (fun _ => true) rfl (by decide)
    (List.cons_ne_nil nodeDeclaration []) h
  obtain ⟨u, hu, -, specifier, before, rest, hby, -, hopens⟩ :=
    Project.import_means_iff load_nodeManifest made (List.mem_singleton.2 rfl)
  obtain rfl := List.mem_singleton.1 hu
  have hplain : ∀ c ∈ nodeSource.path.text.toList, c ∉ escapedChars := by
    simp [nodeSource, escapedChars, Text.lineTerminators]
  exact ⟨load_nodeManifest, g, ws, made, specifier, before, rest, hby, hopens hplain⟩

/-! ## A quote in a path -/

/-- A manifest with a quote in the path of its unit. -/
def quoteManifest : String :=
  "units=[\x7bpath=\"it's.ts\",interfaces=[\x7bname='A'\x7d]\x7d]"

/-- The interface of the manifest. -/
def quoteDeclaration : Declaration := ⟨"A", .interfaceType, [], []⟩

/-- The unit of the manifest. -/
def quoteSource : SourceUnit := ⟨⟨"it's.ts"⟩, [quoteDeclaration]⟩

/-- The project of the manifest, with the places at which names are written in it. -/
def quoteProject : Project :=
  ⟨⟨Manifest.noSettings, [⟨⟨"it's.ts", ⟨13, 22⟩⟩, [⟨⟨"A", ⟨41, 44⟩⟩, [], []⟩], [], []⟩]⟩, ⟨""⟩,
    ⟨[quoteSource]⟩⟩

theorem load_quoteManifest : Project.load quoteManifest ⟨""⟩ = .ok quoteProject := by
  have hread : (Toml.parse? quoteManifest).bind Manifest.ofToml? = some quoteProject.manifest := by
    decide +kernel
  exact Project.load_eq_ok.2 ⟨quoteProject.manifest, hread, rfl⟩

/-- The specifier of a unit `it's.ts` is `../it's`, but the literal in the import of its output is read
    as `../it`, and is followed by `s';`. -/
theorem import_of_quoted_path : Project.load quoteManifest ⟨""⟩ = .ok quoteProject ∧
    ∃ g ws, (⟨⟨"."⟩, ⟨"schema"⟩, .spaces 4⟩ : Layout).generate quoteProject.catalog
        (fun _ => true) = .ok ⟨[g], ws⟩ ∧
      ∃ before rest, g.ImportsBy ⟨⟨"."⟩, ⟨"schema"⟩, .spaces 4⟩ "../it's" before rest ∧
        Text.Dialect.javaScript.read? '\'' ("../it's" ++ "'" ++ rest).toList =
          some (Text.codeUnits "../it", ("s'" ++ rest).toList) ∧
        ¬ Opens '\'' ("../it's" ++ "'" ++ rest).toList "../it's" rest.toList := by
  have built : ((⟨⟨"."⟩, ⟨"schema"⟩, .spaces 4⟩ : Layout).build quoteProject.catalog
      quoteSource).map (·.1.outFile) = .ok ⟨"it's.ts"⟩ := by
    decide +kernel
  obtain ⟨⟨g, ws⟩, h, hout⟩ := map_eq_ok.1 built
  have some : quoteSource.interfaces ≠ [] := List.cons_ne_nil quoteDeclaration []
  have made := Layout.generate_of_units (u := quoteSource) (fun _ => true) rfl (by decide) some h
  obtain ⟨specifier, before, rest, hby⟩ := Layout.importsBy_of_build h some
    (Project.proper_of_load load_quoteManifest (List.mem_singleton.2 rfl))
  have hspecifier : ((⟨⟨"."⟩, ⟨"schema"⟩, .spaces 4⟩ : Layout).directoryOf g.outFile).moduleSpecifier?
      g.source = .some "../it's" := by
    rw [hout, Layout.source_of_build h]
    decide +kernel
  have hcomputed := hby.computed
  rw [hspecifier] at hcomputed
  obtain rfl := Option.some.inj hcomputed
  have hplain : ∀ c ∈ "../it".toList, c ≠ '\'' ∧ c ≠ '\\' ∧ Text.Dialect.javaScript.plain c := by
    simp [Text.Dialect.javaScript]
  have hread := (Text.Dialect.read?_verbatim_iff Text.frugal_javaScript
    (by decide : (Text.charUnits '\'').length = 1) "../it" ("s'" ++ rest).toList).2 hplain
  have hopens := (Text.opens_iff "../it's" rest.toList).not.2
    fun hplain => hplain '\'' (by decide) (by decide)
  refine ⟨load_quoteManifest, g, ws, made, before, rest, hby, ?_, ?_⟩
  · simpa using hread
  · simpa using hopens

end InterfaceGuards
