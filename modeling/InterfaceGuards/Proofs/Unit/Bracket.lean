/-
  The output for a unit is well bracketed.

  * `UnitScript.importCode`, `UnitScript.body`: the import blocks, and what stands behind them.
  * `UnitScript.WellBracketed`: the body, every factory and every guard are balanced, and the
    items of an object literal have one comma between any two of them.
  * `Project.well_bracketed`: so it is for every output of a project.
-/
import InterfaceGuards.Proofs.Factory.Splicing
import InterfaceGuards.Proofs.Manifest.Proper
import InterfaceGuards.Proofs.Script.Item
import InterfaceGuards.Proofs.Synthesis.Balance
import InterfaceGuards.Proofs.Unit.Build

namespace InterfaceGuards

open Script (Balanced Expr Function Helper Import Param Part Single)

namespace UnitScript

/-- The import blocks. -/
def importCode (s : UnitScript) : Code := s.imports.flatMap Import.code

/-- What stands behind the import blocks. -/
def body (s : UnitScript) : Code :=
  s.helpers.flatMap Helper.code ++ s.interfaces.flatMap InterfaceScript.code

/-- The script is well bracketed when it is written with the indentation. -/
structure WellBracketed (s : UnitScript) (indent : Code.Indent) : Prop where
  /-- A factory returns an object literal that ends with the entries of its parameter. -/
  record : ∀ i ∈ s.interfaces, ∃ entries,
    i.record = .record entries (some "params") (some i.declaration.typeName)
  /-- Brackets behind the imports are properly nested, and literals are closed on their lines. -/
  body : Balanced (s.body.text indent)
  /-- So they are in every factory by itself. -/
  factory : ∀ i ∈ s.interfaces, Balanced (i.factoryCode.text indent)
  /-- So they are in every guard by itself. -/
  guard : ∀ i ∈ s.interfaces, Balanced (i.guardCode.text indent)
  /-- An object literal of a factory consists of items that commas separate, and no item holds a
      comma outside its own brackets and literals. -/
  object : ∀ i ∈ s.interfaces, ∀ depth entries spread cast,
    i.record.Holds depth (.record entries spread cast) →
      Part (Expr.objectText indent (depth + 1) entries spread) (i.factoryCode.text indent) ∧
        ∀ item ∈ Expr.items indent (depth + 1) entries spread, Single item

end UnitScript

/-! ## Interfaces -/

namespace Declaration.Proper

variable {d : Declaration}

theorem balanced_name (h : d.Proper) : Balanced d.name := Script.turns_of_properName h.name

theorem balanced_params (h : d.Proper) : ∀ p ∈ d.typeParams, Balanced p :=
  fun p hp => Script.turns_of_properName (h.params p hp)

theorem balanced_typeName (h : d.Proper) : Balanced d.typeName :=
  h.balanced_name.append (Script.balanced_angled h.balanced_params)

end Declaration.Proper

namespace InterfaceScript

variable {i : InterfaceScript}

/-- **A factory is balanced** if its record is. -/
theorem turns_factoryCode (hd : i.declaration.Proper) (hrecord : i.record.Fits) :
    i.factoryCode.Turns true [] [] := by
  have hcreate : Balanced "create" := rfl
  have hparam : Balanced ("params" ++ "" ++ ": ") := rfl
  have hpartial : Balanced "Partial<" := rfl
  have hclose : Balanced ">" := rfl
  have hdefault : Balanced (" = " ++ "\x7b\x7d") := rfl
  have hreturn : Balanced "return " := rfl
  have hend : Balanced ";\n" := rfl
  have hsignature := i.factory.turns_signature (hcreate.append hd.balanced_name) hd.balanced_params
    (List.forall_mem_singleton.2 ((hparam.append ((hpartial.append hd.balanced_typeName).append
      hclose)).append hdefault)) (by simpa [factory] using hd.balanced_typeName)
  have hcode : i.record.code.Turns true [] [] :=
    fun indent depth => (Expr.single_of_fits hrecord indent depth).let_commas
  exact Function.turns_code hsignature
    (((Code.turns_line hreturn 0).append hcode).append (Code.turns_raw hend))

/-- **A guard is balanced** if its checks are. -/
theorem turns_guardCode (hd : i.declaration.Proper)
    (hchecks : (Script.Check.codeAll i.checks).Turns true [] []) :
    i.guardCode.Turns true [] [] := by
  have his : Balanced "is" := rfl
  have hparam : Balanced (Param.required "value" "unknown").text := rfl
  have hvalue : Balanced "value is " := rfl
  have hsignature := i.guard.turns_signature (his.append hd.balanced_name) hd.balanced_params
    (List.forall_mem_singleton.2 hparam)
    (by simpa [guard] using hvalue.append hd.balanced_typeName)
  exact Function.turns_code hsignature (hchecks.append Script.turns_returnTrue)

/-- An object literal of a factory is part of the factory. -/
theorem part_factoryCode {indent : Code.Indent} {depth : Nat} {entries : List (String × Expr)}
    {spread cast : Option String} (h : i.record.Holds depth (.record entries spread cast)) :
    Part (Expr.objectText indent (depth + 1) entries spread) (i.factoryCode.text indent) := by
  have hrecord : Part (i.record.written indent 1) (i.factoryCode.text indent) := by
    have hzero : indent.levels 0 = "" := rfl
    have htext : i.factoryCode.text indent =
        i.factory.signature ++ "\n" ++ indent.levels 1 ++ "return " ++
        i.record.written indent 1 ++ (";\n" ++ "\x7d\n") := by
      simp [factoryCode, Function.code, Code.block, Code.deeper, Expr.written, hzero,
        String.append_assoc]
    rw [htext]
    exact Script.part_append _ _ _
  have hheld : Part (Expr.written indent (1 + depth) (.record entries spread cast))
      (i.record.written indent 1) := h.part 1
  rw [Nat.add_comm] at hheld
  exact (Expr.part_objectText.trans hheld).trans hrecord

end InterfaceScript

/-! ## Outputs -/

namespace Scope

variable {s : Scope}

theorem record_interfaceScript {d : Declaration} {n : Notes} {i : InterfaceScript}
    (h : s.interfaceScript d = ⟨n, .value i⟩) :
    ∃ entries, i.record = .record entries (some "params") (some i.declaration.typeName) := by
  obtain ⟨rfl, j, k, hrecord, -, -⟩ := interfaceScript_eq_value h
  obtain ⟨entries, -, hentries⟩ := Synthesis.bind_pure_eq_value.1 hrecord
  exact ⟨entries, hentries.symm⟩

/-- What is made for an interface fits and is balanced, when the interfaces of the unit are
    proper. -/
theorem turns_interfaceScript {d : Declaration} {n : Notes} {i : InterfaceScript}
    (hunit : ∀ d ∈ s.unit.interfaces, d.Proper) (hd : d.Proper)
    (h : s.interfaceScript d = ⟨n, .value i⟩) :
    i.declaration.Proper ∧ i.record.Fits ∧ (Script.Check.codeAll i.checks).Turns true [] [] := by
  obtain ⟨hdeclaration, j, k, hrecord, hchecks, -⟩ := interfaceScript_eq_value h
  have hspread : Single "params" := rfl
  refine ⟨hdeclaration ▸ hd,
    splices_recordOf (by simpa using hspread) (by simpa using hd.balanced_typeName)
    hrecord, Script.turns_codeAll fun check hcheck => ?_⟩
  have hvalue : Balanced Script.Accessor.value.base := rfl
  refine (about_objectChecksOf hchecks check hcheck).turns (fun type htype => ?_) hvalue
  -- Only guards of the unit are called, and these are named after its interfaces.
  obtain ⟨d', hd', hname⟩ := List.any_eq_true.1 htype
  have his : Balanced "is" := rfl
  exact his.append (eq_of_beq hname ▸ (hunit d' hd').balanced_name)

end Scope

namespace Layout

variable {l : Layout} {c : Catalog} {u : SourceUnit} {g : GeneratedUnit} {ws : List Diagnostic}

/-- The script of a unit whose interfaces are proper is well bracketed. -/
theorem wellBracketed_of_build (h : l.build c u = .ok (g, ws)) (hu : ∀ d ∈ u.interfaces, d.Proper)
    (indent : Code.Indent) : g.script.WellBracketed indent := by
  obtain ⟨n, hmade, -⟩ := build_eq_ok h
  obtain ⟨hds, his⟩ := Scope.interfaceScripts_eq_ok hmade
  have hturns : ∀ i ∈ g.script.interfaces,
      i.declaration.Proper ∧ i.record.Fits ∧ (Script.Check.codeAll i.checks).Turns true [] [] := by
    intro i hi
    obtain ⟨m, hscript, -⟩ := his i hi
    have hd : i.declaration ∈ u.interfaces := hds ▸ List.mem_map_of_mem hi
    exact Scope.turns_interfaceScript hu (hu _ hd) hscript
  have hfactory : ∀ i ∈ g.script.interfaces, i.factoryCode.Turns true [] [] := fun i hi =>
    InterfaceScript.turns_factoryCode (hturns i hi).1 (hturns i hi).2.1
  have hguard : ∀ i ∈ g.script.interfaces, i.guardCode.Turns true [] [] := fun i hi =>
    InterfaceScript.turns_guardCode (hturns i hi).1 (hturns i hi).2.2
  have hbody : g.script.body.Turns true [] [] :=
    (Code.Turns.flatMap fun f _ => f.turns_code).append
      (Code.Turns.flatMap fun i hi => (hfactory i hi).append (hguard i hi))
  refine ⟨fun i hi => ?_, hbody.text indent, fun i hi => (hfactory i hi).text indent,
    fun i hi => (hguard i hi).text indent, fun i hi depth entries spread cast hholds => ?_⟩
  · obtain ⟨m, hscript, -⟩ := his i hi
    exact Scope.record_interfaceScript hscript
  · refine ⟨InterfaceScript.part_factoryCode hholds, ?_⟩
    have hfits := Expr.fits_of_holds (hturns i hi).2.1 hholds
    cases hfits with
    | record hentries hspread _ =>
      exact Expr.single_items
        (fun entry hentry => Expr.single_of_fits (hentries entry hentry) indent _) hspread

end Layout

/-- **The output for a unit is well bracketed.** -/
theorem Project.well_bracketed {text : String} {baseDir : Path} {p : Project}
    (hp : Project.load text baseDir = .ok p) {u : SourceUnit} (hu : u ∈ p.catalog.units)
    {l : Layout} {g : GeneratedUnit} {ws : List Diagnostic}
    (h : l.build p.catalog u = .ok (g, ws)) :
    g.contents = g.script.importCode.text l.indent ++ g.script.body.text l.indent ∧
      g.script.interfaces.map (·.declaration) = u.interfaces ∧ g.script.WellBracketed l.indent := by
  obtain ⟨n, hmade, -, hcontents, -⟩ := Layout.build_eq_ok h
  refine ⟨?_, (Scope.interfaceScripts_eq_ok hmade).1,
    Layout.wellBracketed_of_build h (fun d hd => ?_) _⟩
  · rw [hcontents, UnitScript.code, List.append_assoc, Code.text_append]
    rfl
  · exact Project.proper_of_load hp hu d (List.mem_of_mem_filter hd)

/-- A manifest with brackets and quotation marks in the name of a member and in a literal type. -/
def quotingManifest : String :=
  "units=[\x7bpath='q.ts',interfaces=[\x7bname='Q',members=[" ++
    "\x7bname=\"]'\",type=\"\x7bx:'\x7d,'\x7d\"\x7d]\x7d]\x7d]"

/-- The unit of the manifest. -/
def quotingSource : SourceUnit :=
  ⟨⟨"q.ts"⟩, [⟨"Q", .interfaceType, [], [⟨some "]'",
    some (.object [⟨some "x", some (.literal (.string "\x7d,")), false, .property⟩]), false,
      .property⟩]⟩]⟩

/-- The project of the manifest, with the places at which names and types are written in it. -/
def quotingProject : Project :=
  ⟨⟨Manifest.noSettings, [⟨⟨"q.ts", ⟨13, 19⟩⟩, [⟨⟨"Q", ⟨38, 41⟩⟩, [],
    [⟨some ⟨"]'", ⟨57, 61⟩⟩, some ⟨"\x7bx:'\x7d,'\x7d", ⟨67, 77⟩⟩, false, .property⟩]⟩], [], []⟩]⟩,
    ⟨""⟩, ⟨[quotingSource]⟩⟩

theorem load_quotingManifest : Project.load quotingManifest ⟨""⟩ = .ok quotingProject := by
  have hread :
      (Toml.parse? quotingManifest).bind Manifest.ofToml? = some quotingProject.manifest := by
    decide +kernel
  exact Project.load_eq_ok.2 ⟨quotingProject.manifest, hread, rfl⟩

/-- The output for the unit is well bracketed, whatever its names and literals hold. -/
theorem Project.well_bracketed_quoting : Project.load quotingManifest ⟨""⟩ = .ok quotingProject ∧
    ∃ g ws, (⟨⟨""⟩, ⟨"out"⟩, .spaces 2⟩ : Layout).build quotingProject.catalog quotingSource =
        .ok (g, ws) ∧
      g.contents = g.script.importCode.text (.spaces 2) ++ g.script.body.text (.spaces 2) ∧
      g.script.interfaces.map (·.declaration) = quotingSource.declarations ∧
      g.script.WellBracketed (.spaces 2) := by
  have built : ((⟨⟨""⟩, ⟨"out"⟩, .spaces 2⟩ : Layout).build quotingProject.catalog
      quotingSource).isOk := by
    decide +kernel
  obtain ⟨⟨g, ws⟩, h⟩ := exists_ok_of_isOk built
  obtain ⟨hcontents, hinterfaces, hwell⟩ :=
    Project.well_bracketed load_quotingManifest (List.mem_singleton.2 rfl) h
  exact ⟨load_quotingManifest, g, ws, h, hcontents, hinterfaces, hwell⟩

end InterfaceGuards
