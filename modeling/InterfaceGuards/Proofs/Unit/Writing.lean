/-
  Writing the output of a unit to streams, and its indentation.

  * `Scope.writeInterface`, `writeInterfaces`: factories and guards are written to the body.
  * `Layout.writeContents`: imports and helpers are written to a header, and the body is put
    behind it; `writeContents_eq` says that this is what a build makes.
  * `Layout.indentation_immaterial`: the output is one sequence of pieces for every indentation,
    and what the walkers write is one for every depth.
-/
import InterfaceGuards.Proofs.Synthesis.Writing
import InterfaceGuards.Proofs.Unit.Build

namespace InterfaceGuards

open Code (Streams)
open Script (Accessor Check Expr Helper Import)
open Writing (Emits Writes append write block emits_append emits_lift emits_write)

/-! ## Writing -/

/-- Writes names, one to a line. -/
def Writing.nameLines (i : Nat) : List String → Writing Unit
  | [] => pure ()
  | name :: names => do
    write i (name ++ ",\n")
    nameLines i names

/-- Writes an import block. -/
def Script.Import.write (i : Nat) (imported : Import) : Writing Unit := do
  block i "import \x7b\n" (Writing.nameLines i imported.names) "\x7d"
  append i (" from '" ++ imported.source ++ "';\n")

/-- Writes the definition of a helper. -/
def Script.Helper.write (i : Nat) (h : Helper) : Writing Unit :=
  block i (h.function.signature ++ "\n")
    (match h with
      | .isUnknownObject => Writing.write i "return typeof value === 'object' && value !== null;\n"
      | .validateVector => do
        Writing.write i "if(!Array.isArray(value)) return false;\n"
        Writing.write i "for(const i of value) if(!validate(i)) return false;\n"
        Writing.write i "return true;\n")
    "\x7d\n"

/-- Writes several import blocks. -/
def Writing.imports (i : Nat) : List Import → Writing Unit
  | [] => pure ()
  | imported :: rest => do
    imported.write i
    imports i rest

/-- Writes the definitions of several helpers. -/
def Writing.helpers (i : Nat) : List Helper → Writing Unit
  | [] => pure ()
  | h :: rest => do
    h.write i
    helpers i rest

/-- Writes what stands before the factories and guards. -/
def Writing.header (i : Nat) (imports : List Import) (helpers : List Helper) : Writing Unit := do
  Writing.imports i imports
  Writing.helpers i helpers

/-- The script of an interface with nothing in its functions, which they are declared as. -/
def Declaration.bare (d : Declaration) : InterfaceScript := ⟨d, .undefined, []⟩

namespace Scope

/-- Writes the factory and the guard of an interface. -/
def writeInterface (s : Scope) (i : Nat) (d : Declaration) : Writing Unit := do
  Writing.block i (d.bare.factory.signature ++ "\n")
    (do
      write i "return "
      (s.inside d).writeRecord i d.members (some "params") (some d.typeName)
      append i ";\n")
    "\x7d\n"
  Writing.block i (d.bare.guard.signature ++ "\n")
    (do
      (s.inside d).writeObjectChecks i .value d.members
      write i "return true;\n")
    "\x7d\n"

/-- Writes the factories and guards of several interfaces; the first error ends it. -/
def writeInterfaces (s : Scope) (i : Nat) :
    List Declaration → Streams → Except GenerateError (Notes × Streams)
  | [], w => .ok (.empty, w)
  | d :: ds, w =>
    match (s.writeInterface i d).run w with
    | (⟨_, .error e⟩, _) => .error (.synthesis s.unit.path d.name e)
    | (⟨_, .endless⟩, _) => .error (.endless s.unit.path d.name)
    | (⟨notes, .value ()⟩, w') =>
      match writeInterfaces s i ds w' with
      | .error e => .error e
      | .ok (more, w'') => .ok (notes ++ more, w'')

end Scope

/-- The contents of the output for a unit, with the warnings raised on the way: the body is written
    first, then the header to a stream of its own, and the body is put behind it. -/
def Layout.writeContents (l : Layout) (catalog : Catalog) (unit : SourceUnit) :
    Except GenerateError (String × List Diagnostic) := do
  let outFile ← l.outFile unit.path
  let (notes, body) ← (Scope.start catalog unit).writeInterfaces 0 unit.interfaces (.start l.indent)
  let needed := requirements unit notes.helpers
  let imports ← importBlocks (l.directoryOf outFile) needed.imports.entries
  let (_, header) := (Writing.header 0 imports needed.helpers).run (.start l.indent)
  let (text, _) := body.drain 0
  let (contents, _) := (header.append 0 text).drain 0
  .ok (contents, notes.warnings)

/-! ## What is written -/

theorem emits_nameLines : ∀ names : List String,
    Emits (fun i => Writing.nameLines i names) (pure ())
      (names.map fun name => .line 0 (name ++ ",\n"))
  | [] => emits_lift (pure ())
  | name :: names => (emits_write (name ++ ",\n")).then (emits_nameLines names)

theorem emits_import (imported : Import) :
    Emits (fun i => imported.write i) (pure ()) imported.code :=
  ((emits_nameLines imported.names).block _ _).then (emits_append _)

theorem emits_helper (h : Helper) : Emits (fun i => h.write i) (pure ()) h.code := by
  cases h with
  | isUnknownObject => exact (emits_write _).block _ _
  | validateVector =>
    exact ((emits_write _).then ((emits_write _).then (emits_write _))).block _ _

theorem emits_imports : ∀ imports : List Import,
    Emits (fun i => Writing.imports i imports) (pure ()) (imports.flatMap Import.code)
  | [] => emits_lift (pure ())
  | imported :: imports => (emits_import imported).then (emits_imports imports)

theorem emits_helpers : ∀ helpers : List Helper,
    Emits (fun i => Writing.helpers i helpers) (pure ()) (helpers.flatMap Helper.code)
  | [] => emits_lift (pure ())
  | h :: helpers => (emits_helper h).then (emits_helpers helpers)

theorem emits_header (imports : List Import) (helpers : List Helper) :
    Emits (fun i => Writing.header i imports helpers) (pure ())
      (imports.flatMap Import.code ++ helpers.flatMap Helper.code) :=
  (emits_imports imports).then (emits_helpers helpers)

/-- **An interface is written as it is made.** -/
theorem writes_interface (s : Scope) (d : Declaration) :
    Writes (fun i => s.writeInterface i d) (s.interfaceScript d) InterfaceScript.code := by
  have hfactory := (((s.inside d).writes_record d.members (some "params") (some d.typeName)).after
    (emits_append ";\n")).before (emits_write "return ")
  have hguard := ((s.inside d).writes_objectChecks .value d.members).after
    (emits_write "return true;\n")
  refine (hfactory.block (d.bare.factory.signature ++ "\n") "\x7d\n").seq
    (hguard.block (d.bare.guard.signature ++ "\n") "\x7d\n")
    (fun record checks => (⟨d, record, checks⟩ : InterfaceScript)) fun _ _ _ _ => ?_
  rfl

/-- **Several interfaces are written as they are made**, and fail as they fail. -/
theorem writeInterfaces_eq (s : Scope) (i : Nat) : ∀ (ds : List Declaration) (w : Streams),
    i < w.buffers.length → match s.interfaceScripts ds with
      | .error e => s.writeInterfaces i ds w = .error e
      | .ok (scripts, notes) => ∃ w', s.writeInterfaces i ds w = .ok (notes, w') ∧
          w.Wrote i ((Code.shift w.depth (scripts.flatMap InterfaceScript.code)).text w.indent) w'
  | [], w, hi => ⟨w, rfl, (Streams.Keeps.refl w).wrote hi⟩
  | d :: ds, w, hi => by
    obtain ⟨pieces, hemits, hcode⟩ := writes_interface s d
    obtain ⟨w₁, hrun, hw₁⟩ := hemits w i hi
    rw [Scope.interfaceScripts, Scope.writeInterfaces]
    dsimp only at hrun
    rw [hrun]
    generalize s.interfaceScript d = made at hcode ⊢
    obtain ⟨n, o⟩ := made
    cases o with
    | error e => rfl
    | endless => rfl
    | value script =>
      have hrest := writeInterfaces_eq s i ds w₁ (Nat.lt_of_lt_of_le hi hw₁.length_le)
      cases hscripts : s.interfaceScripts ds with
      | error e =>
        rw [hscripts] at hrest
        simp only [Synthesis.void, Outcome.void, hrest]
      | ok rest =>
        obtain ⟨scripts, notes⟩ := rest
        rw [hscripts] at hrest
        obtain ⟨w₂, hmore, hw₂⟩ := hrest
        rw [hw₁.indent, hw₁.depth] at hw₂
        refine ⟨w₂, by simp only [Synthesis.void, Outcome.void, hmore], ?_⟩
        rw [hcode script rfl] at hw₁
        simpa using hw₁.trans hw₂

theorem writeContents_eq (l : Layout) (catalog : Catalog) (unit : SourceUnit) :
    l.writeContents catalog unit =
      (l.build catalog unit).map fun (made, warnings) => (made.contents, warnings) := by
  have hbody :=
    writeInterfaces_eq (.start catalog unit) 0 unit.interfaces (.start l.indent) Nat.zero_lt_one
  unfold Layout.writeContents Layout.build
  cases l.outFile unit.path with
  | error e => rfl
  | ok outFile =>
  cases hscripts : (Scope.start catalog unit).interfaceScripts unit.interfaces with
  | error e =>
    rw [hscripts] at hbody
    simp only [bind, Except.bind, show _ = Except.error e from hbody, Except.map]
  | ok made =>
    obtain ⟨scripts, notes⟩ := made
    rw [hscripts] at hbody
    obtain ⟨body, hrun, hbody⟩ := hbody
    simp only [bind, Except.bind, hrun]
    cases Layout.importBlocks (l.directoryOf outFile)
        (Layout.requirements unit notes.helpers).imports.entries with
    | error e => simp only [Except.map]
    | ok imports =>
      obtain ⟨header, hhead, hheader⟩ := emits_header imports
        (Layout.requirements unit notes.helpers).helpers (.start l.indent) 0 Nat.zero_lt_one
      let needed := Layout.requirements unit notes.helpers
      have hcontents : (header.append 0 (body.buffer 0)).buffer 0 =
          (⟨imports, needed.helpers, scripts⟩ : UnitScript).code.text l.indent := by
        rw [Streams.buffer_append (Nat.lt_of_lt_of_le Nat.zero_lt_one hheader.length_le),
          hheader.buffer, hbody.buffer]
        simp [Streams.start, Streams.buffer, Code.shift_zero, UnitScript.code,
          String.append_assoc, needed]
      dsimp only at hhead
      simp only [Except.map, hhead]
      rw [← hcontents]
      rfl

/-! ## Indentation -/

/-- **The code of the output for a unit does not depend on the indentation**, nor does the error. -/
theorem contents_eq_text (catalog : Catalog) (unit : SourceUnit) (rootDir destination : Path)
    (indent : Code.Indent) :
    ((⟨rootDir, destination, indent⟩ : Layout).build catalog unit).map (·.1.contents) =
      ((⟨rootDir, destination, .tab⟩ : Layout).build catalog unit).map
        fun made => made.1.script.code.text indent := by
  unfold Layout.build
  rw [show (⟨rootDir, destination, indent⟩ : Layout).outFile unit.path =
    (⟨rootDir, destination, .tab⟩ : Layout).outFile unit.path from rfl]
  cases (⟨rootDir, destination, .tab⟩ : Layout).outFile unit.path with
  | error e => rfl
  | ok outFile =>
  cases (Scope.start catalog unit).interfaceScripts unit.interfaces with
  | error e => rfl
  | ok made =>
    obtain ⟨scripts, notes⟩ := made
    simp only [bind, Except.bind, Layout.directoryOf]
    cases Layout.importBlocks (destination.join (outFile.parent?.getD .empty))
        (Layout.requirements unit notes.helpers).imports.entries with
    | error e => rfl
    | ok imports => rfl

/-- **Indentation is only indentation.**  For every unit there is one error or one sequence of
    pieces, and whatever the indentation, building the unit fails with the error or makes the text
    of the pieces, and so does writing it to streams.  And what is written for a record, a default
    or checks, up to an error if there is one, is one sequence of pieces to whatever stream it is
    written: those that stand in lines are as much deeper as the stream is. -/
theorem Layout.indentation_immaterial (catalog : Catalog) (unit : SourceUnit)
    (rootDir destination : Path) :
    (∃ result : Except GenerateError Code, ∀ indent : Code.Indent,
      let l : Layout := ⟨rootDir, destination, indent⟩
      (l.build catalog unit).map (·.1.contents) = result.map (Code.text indent) ∧
        (l.writeContents catalog unit).map (·.1) = result.map (Code.text indent)) ∧
    ∀ s : Scope,
      (∀ members spread cast, Writes (fun i => s.writeRecord i members spread cast)
        (s.recordOf members spread cast) Expr.code) ∧
      (∀ d, Writes (fun i => s.writeDefault i d) (s.defaultOf d) Expr.code) ∧
      (∀ a d, Writes (fun i => s.writeChecks i a d) (s.checksOf a d) Check.codeAll) ∧
      ∀ a members, Writes (fun i => s.writeObjectChecks i a members) (s.objectChecksOf a members)
        Check.codeAll := by
  refine ⟨⟨((⟨rootDir, destination, .tab⟩ : Layout).build catalog unit).map (·.1.script.code),
    fun indent => ?_⟩, fun s => ⟨s.writes_record, s.writes_default, s.writes_checks,
      s.writes_objectChecks⟩⟩
  have hcontents := contents_eq_text catalog unit rootDir destination indent
  have hbuild : ((⟨rootDir, destination, indent⟩ : Layout).build catalog unit).map (·.1.contents) =
      (((⟨rootDir, destination, .tab⟩ : Layout).build catalog unit).map (·.1.script.code)).map
        (Code.text indent) := by
    rw [hcontents]
    cases Layout.build _ catalog unit <;> rfl
  refine ⟨hbuild, ?_⟩
  rw [← hbuild, writeContents_eq]
  cases Layout.build _ catalog unit <;> rfl

end InterfaceGuards
