/-
  What becomes of the types that have been read when the output of a unit is made.

  * `Layout.build_ne_emptyUnion`: no unit fails for a union without alternatives.
  * `Expansion.LeftOut.ne_emptyUnion`, `malformed_of_object`: neither is a member left out for one, and
    a malformed member that is left out of an object type is a method or an index signature.
  * `Project.read_types_sound`: both of every project, from the form of what is read.
-/
import InterfaceGuards.Proofs.Factory.Default
import InterfaceGuards.Proofs.Manifest.Written
import InterfaceGuards.Proofs.Synthesis.Ground
import InterfaceGuards.Proofs.Unit.Warning

namespace InterfaceGuards

open Expansion (Leads LeftOut Reports Grounded)

section
variable {c : Catalog} {u : SourceUnit} {d : Declaration}

theorem Expansion.grounded_of_mem (hu : u ∈ c.units) (hd : d ∈ u.interfaces) :
    Grounded c ⟨(Scope.start c u).inside d, .members d.members⟩ :=
  ⟨rfl, .declared ⟨u, hu, (List.mem_filter.1 hd).1⟩⟩

/-- **No unit fails for a union without alternatives.** -/
theorem Layout.build_ne_emptyUnion (hc : c.IsRead) (hu : u ∈ c.units) (l : Layout) (path : Path)
    (name : String) : l.build c u ≠ .error (.synthesis path name .emptyUnion) := by
  intro h
  obtain ⟨-, pre, d, post, hds, -, -, n, hd⟩ :=
    Scope.first_of_interfaceScripts (Layout.interfaceScripts_of_build h)
  obtain ⟨-, k, hchecks⟩ := Scope.interfaceScript_eq_error hd
  have hmem : d ∈ u.interfaces := by simp [hds]
  exact Synthesis.not_failedChecks hc (Expansion.grounded_of_mem hu hmem) _ _
    (Synthesis.objectChecksWith_eq_error hchecks)

namespace Expansion.LeftOut

variable {p : Purpose} {s : Scope} {ms : List Member} {m : Member} {e : SynthesisError}

/-- No member is left out for a union without alternatives. -/
theorem ne_emptyUnion (hc : c.IsRead) (hx : Grounded c ⟨s, .members ms⟩) (hm : m ∈ ms)
    (h : LeftOut p s m e) : e ≠ .emptyUnion := by
  rintro rfl
  cases h with
  | malformed he => cases MemberOf.isMalformed_of_property? he
  | missing hp _ hmade =>
    exact Synthesis.defaultOfType_ne_emptyUnion hc (s := s.within _) hx.catalog
      (hx.task.occurs hm (MemberOf.type_of_property? hp)) _ hmade

/-- **A malformed member that is left out of an object type is a method or an index signature.** -/
theorem malformed_of_object (hc : c.IsRead) (ho : c.Occurs (.object ms)) (hm : m ∈ ms)
    (h : LeftOut p s m e) (he : e.isMalformed = true) :
    e = .malformedMember m.displayName .notProperty ∧ (m.kind = .method ∨ m.kind = .index) := by
  cases h with
  | malformed hp => exact (hc.formed ho m hm).malformed hp
  | missing _ _ hmade =>
    rw [Synthesis.isMalformed_of_defaultOfType hmade] at he
    cases he

end Expansion.LeftOut

end

namespace Project

variable {text : String} {baseDir : Path} {p : Project}

theorem isRead (h : load text baseDir = .ok p) : p.catalog.IsRead := fun _ ht => readIn_of_occurs h ht

/-- **Types that are read are well-formed, and stay so while output is made.**  Every part of a type
    that is read in a scope has the form of such types: names refer from the unit of the scope and
    mean nothing else, parameters are of the scope, unions have two alternatives, and members are
    properties, methods or index signatures.  So in a project whose manifest is accepted, the
    description of every type that occurs is filled, and nothing fails for a union without
    alternatives: no default, no checks and no unit.  What is left out of an object type for its form
    is a method or an index signature.  Each warning of a unit reports a member that is left out, of
    a declaration or of an object type that is written, for its form if the warning says so. -/
theorem read_types_sound :
    (∀ (scope : TypeExpr.Scope) (source : String) (t : TypeExpr),
      TypeExpr.parse scope source = .ok t → ∀ u, t.Has u → u.ReadIn scope) ∧
    ∀ (text : String) (baseDir : Path) (p : Project), load text baseDir = .ok p →
      (∀ t, p.catalog.Occurs t →
        ∀ (s : Scope) (n : Notes), s.catalog = p.catalog →
          (∀ bound, Synthesis.defaultOfType bound s t ≠ ⟨n, .error .emptyUnion⟩ ∧
            ∀ a, Synthesis.checksOfType bound s a t ≠ ⟨n, .error .emptyUnion⟩) ∧
          ∀ d, p.catalog.describe t = .ok d → d.Filled ∧
            s.defaultOf d ≠ ⟨n, .error .emptyUnion⟩ ∧
            ∀ a, s.checksOf a d ≠ ⟨n, .error .emptyUnion⟩) ∧
      (∀ ms, p.catalog.Occurs (.object ms) → ∀ m ∈ ms, ∀ purpose s e, LeftOut purpose s m e →
        e.isMalformed = true →
          e = .malformedMember m.displayName .notProperty ∧ (m.kind = .method ∨ m.kind = .index)) ∧
      ∀ (l : Layout), ∀ u ∈ p.catalog.units,
        (∀ path name, l.build p.catalog u ≠ .error (.synthesis path name .emptyUnion)) ∧
        ∀ g ws, l.build p.catalog u = .ok (g, ws) → ∀ w ∈ ws,
          w.message ≠ "skipped: " ++ SynthesisError.emptyUnion.message ∧
          ∃ d ∈ u.interfaces, ∃ purpose names s ms m e,
            Leads purpose ⟨(Scope.start p.catalog u).inside d, .members d.members⟩ names
              ⟨s, .members ms⟩ ∧
            p.catalog.MembersOf ms ∧ m ∈ ms ∧ LeftOut purpose s m e ∧
            w = (s.within m.displayName).skipped purpose.phase e ∧
            w.location = some (u.path.text ++ ": " ++
              Text.joinWith "." (d.name :: names ++ [m.displayName])) ∧
            (w.AboutForm → e.isMalformed = true) := by
  refine ⟨fun scope source t h u hu => (TypeExpr.readIn_of_parse h).of_has hu,
    fun text baseDir p hload => ?_⟩
  have hc := isRead hload
  refine ⟨fun t ht s n hs => ⟨fun bound => ⟨Synthesis.defaultOfType_ne_emptyUnion hc hs ht bound,
        Synthesis.checksOfType_ne_emptyUnion hc hs ht bound⟩,
      fun d hd => ⟨Catalog.filled_of_describe hc ht hd, Scope.defaultOf_ne_emptyUnion hc hs ht hd,
        Scope.checksOf_ne_emptyUnion hc hs ht hd⟩⟩,
    fun ms ho m hm purpose s e he => he.malformed_of_object hc ho hm,
    fun l u hu => ⟨l.build_ne_emptyUnion hc hu, fun g ws h w hw => ?_⟩⟩
  obtain ⟨n, his, -, -, rfl⟩ := Layout.build_eq_ok h
  obtain ⟨d, hd, purpose, names, s, ms, m, e, hleads, hm, he, rfl⟩ :=
    Scope.interfaceScripts_reports his w hw
  have hx := (Expansion.grounded_of_mem hu hd).leads hc hleads
  refine ⟨fun hmessage => he.ne_emptyUnion hc hx hm (SynthesisError.eq_unsupported_of_message
    ((String.append_right_inj _).1 hmessage)), d, hd, purpose, names, s, ms, m, e, hleads, hx.task,
    hm, he, rfl, ?_, Scope.isMalformed_of_skipped⟩
  obtain ⟨hpath, hunit⟩ := hleads.path
  show some (s.unit.path.text ++ ": " ++ Text.joinWith "." (m.displayName :: s.path).reverse) = _
  rw [hpath, hunit, List.reverse_cons, List.reverse_append, List.reverse_reverse]
  rfl

end Project

/-! ## A method in an object -/

/-- A manifest of the unit whose interface has a method in an object of its own. -/
def signatureManifest : String :=
  "units=[\x7bpath='a.ts',interfaces=[\x7bname='Handler',members=[" ++
    "\x7bname='on',type='\x7b error(): null \x7d'\x7d]\x7d]\x7d]"

/-- The project of the manifest, with the places at which names and types are written in it. -/
def signatureProject : Project :=
  ⟨⟨Manifest.noSettings, [⟨⟨"a.ts", ⟨13, 19⟩⟩, [⟨⟨"Handler", ⟨38, 47⟩⟩, [],
    [⟨some ⟨"on", ⟨63, 67⟩⟩, some ⟨"\x7b error(): null \x7d", ⟨73, 92⟩⟩, false, .property⟩]⟩], [],
      []⟩]⟩, ⟨""⟩, ⟨[signatureUnit]⟩⟩

theorem load_signatureManifest : Project.load signatureManifest ⟨""⟩ = .ok signatureProject := by
  have hread : (Toml.parse? signatureManifest).bind Manifest.ofToml? =
      some signatureProject.manifest := by
    decide +kernel
  exact Project.load_eq_ok.2 ⟨signatureProject.manifest, hread, rfl⟩

/-- The object type that is written for the interface. -/
def signatureMembers : List Member := [⟨some "error", none, false, .method⟩]

/-- The member of the interface is well-formed, so that a malformed one stands in an object type. -/
theorem occurs_of_malformed {ms : List Member} (h : signatureProject.catalog.MembersOf ms)
    {m : Member} (hm : m ∈ ms) {e : SynthesisError} (he : m.property? = .error e) :
    signatureProject.catalog.Occurs (.object ms) := by
  cases h with
  | object ho => exact ho
  | declared hd =>
    obtain ⟨u, hu, hd⟩ := hd
    cases List.mem_singleton.1 hu
    cases List.mem_singleton.1 hd
    cases List.mem_singleton.1 hm
    cases he

/-- Both warnings about the interface are about the method of its object. -/
theorem read_types_sound_signature :
    Project.load signatureManifest ⟨""⟩ = .ok signatureProject ∧
    (∀ u, (TypeExpr.object signatureMembers).Has u → u.ReadIn ⟨[], some ⟨"a.ts"⟩⟩) ∧
    ∃ g ws, (⟨⟨""⟩, ⟨"out"⟩, .spaces 2⟩ : Layout).build signatureProject.catalog signatureUnit =
        .ok (g, ws) ∧
      ws.map (·.message) = List.replicate 2 "skipped: member `error` is not a property signature" ∧
      ∀ w ∈ ws, w.message ≠ "skipped: " ++ SynthesisError.emptyUnion.message ∧
        ∃ ms m, signatureProject.catalog.Occurs (.object ms) ∧ m ∈ ms ∧
          w.message = "skipped: " ++
            (SynthesisError.malformedMember m.displayName .notProperty).message ∧
          (m.kind = .method ∨ m.kind = .index) := by
  have hparse : TypeExpr.parse ⟨[], some ⟨"a.ts"⟩⟩ "\x7b error(): null \x7d" =
      .ok (.object signatureMembers) := rfl
  have built : ((⟨⟨""⟩, ⟨"out"⟩, .spaces 2⟩ : Layout).build signatureProject.catalog
      signatureUnit).toOption.map (fun made => made.2.map (·.message)) =
        some (List.replicate 2 "skipped: member `error` is not a property signature") := by
    decide +kernel
  obtain ⟨hread, hproject⟩ := Project.read_types_sound
  refine ⟨load_signatureManifest, hread _ _ _ hparse, ?_⟩
  cases h : (⟨⟨""⟩, ⟨"out"⟩, .spaces 2⟩ : Layout).build signatureProject.catalog signatureUnit with
  | error e => rw [h] at built; cases built
  | ok made =>
    obtain ⟨g, ws⟩ := made
    rw [h] at built
    have hmessages : ws.map (·.message) = _ := Option.some.inj built
    refine ⟨g, ws, rfl, hmessages, fun w hw => ?_⟩
    obtain ⟨-, hobjects, hunits⟩ := hproject _ _ _ load_signatureManifest
    obtain ⟨-, hwarnings⟩ := hunits _ signatureUnit (List.mem_singleton.2 rfl)
    obtain ⟨hne, d, hd, purpose, names, s, ms, m, e, -, hms, hm, hleft, rfl, -, hmalformed⟩ :=
      hwarnings g ws h w hw
    have hform : e.isMalformed = true := hmalformed
      ⟨"error", .notProperty, List.eq_of_mem_replicate (hmessages ▸ List.mem_map_of_mem hw)⟩
    have ho : signatureProject.catalog.Occurs (.object ms) := by
      cases hleft with
      | malformed he => exact occurs_of_malformed hms hm he
      | missing _ _ hmade =>
        rw [Synthesis.isMalformed_of_defaultOfType hmade] at hform
        cases hform
    obtain ⟨rfl, hkind⟩ := hobjects ms ho m hm purpose s e hleft hform
    exact ⟨hne, ms, m, ho, hm, rfl, hkind⟩

end InterfaceGuards
