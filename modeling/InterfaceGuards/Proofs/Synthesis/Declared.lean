/-
  Declared types are written by their declarations, all but one.

  * `Session.SameWork`: two ways to write code do the same, or neither comes to an end.
  * `Catalog.StandsFor`: an alias and the type it stands for.
  * `Catalog.isDate_iff`: what is taken for the built-in class of dates: a reference by its name
    that means no declaration, and one that means a class or interface of that name.
  * `Session.writes_declaration_iff`: a reference to a class or interface is written as its members
    are, unless it has the name of the built-in class.
-/
import InterfaceGuards.Proofs.Catalog.Unfolding
import InterfaceGuards.Proofs.Guard.Unit
import InterfaceGuards.Proofs.Manifest.Load
import InterfaceGuards.Proofs.Synthesis.Bound
import InterfaceGuards.Synthesis.Session

namespace InterfaceGuards

open Relation (ReflTransGen)
open Script (Accessor Check Expr)

/-! ## The class of dates -/

namespace Catalog

variable {c : Catalog} {t t' : TypeExpr} {made : Description} {hops : Nat}

/-- The first type refers to an alias, and the second is what the alias stands for. -/
def StandsFor (c : Catalog) (t t' : TypeExpr) : Prop :=
  ∃ name origin d, t = .named name [] origin ∧ c.lookup? name origin = some d ∧
    d.isGeneric = false ∧ d.kind = .alias t'

/-- A class or interface that is described with its members. -/
def DeclaresClass (c : Catalog) (name : String) (origin : Option Path) (d : Declaration) : Prop :=
  c.lookup? name origin = some d ∧ d.isGeneric = false ∧ ∀ target, d.kind ≠ .alias target

/-- The reference by name is taken for the built-in class of dates: it means no declaration, or a
    class or interface. -/
def MeansDate (c : Catalog) (origin : Option Path) : Prop :=
  c.lookup? Description.dateName origin = none ∨
    ∃ d, c.DeclaresClass Description.dateName origin d

theorem DeclaresClass.follow {name : String} {origin : Option Path} {d : Declaration}
    (h : c.DeclaresClass name origin d) :
    c.follow hops name [] origin = .ok (.classLike d.name d.members) :=
  follow_eq_ok_iff.2 (.classLike h.1 h.2.1 h.2.2)

theorem isDate_aliased (name : String) : (made.aliased name).isDate = made.isDate := by
  cases made <;> rfl

/-- How a name comes to be described as the class of dates. -/
theorem date_of_follow {name : String} {args : List TypeExpr} {origin : Option Path}
    (h : c.follow hops name args origin = .ok made) (hdate : made.isDate) :
    args = [] ∧ (name = Description.dateName ∧ c.MeansDate origin ∨
      ∃ n target f, hops = n + 1 ∧ c.StandsFor (.named name args origin) target ∧
        describeWith (c.follow n) target = .ok f ∧ f.isDate) := by
  cases follow_eq_ok_iff.1 h with
  | date hfound hname =>
    subst hname
    exact ⟨rfl, .inl ⟨rfl, .inl hfound⟩⟩
  | generic => cases hdate
  | @aliased n e target f hfound hplain hkind hf =>
    rw [isDate_aliased] at hdate
    exact ⟨rfl, .inr ⟨n, target, f, rfl, ⟨name, origin, e, rfl, hfound, hplain, hkind⟩, hf, hdate⟩⟩
  | @classLike _ e hfound hplain hkind =>
    obtain ⟨-, hname⟩ := declares_of_lookup? hfound
    obtain rfl : name = Description.dateName := by
      rw [← hname]
      exact beq_iff_eq.1 hdate
    exact ⟨rfl, .inl ⟨rfl, .inr ⟨e, hfound, hplain, hkind⟩⟩⟩

/-- Only a reference by name is described as the class of dates. -/
theorem named_of_isDate
    {follow : String → List TypeExpr → Option Path → Except ResolveError Description}
    (h : describeWith follow t = .ok made) (hdate : made.isDate) :
    ∃ name args origin, t = .named name args origin ∧ follow name args origin = .ok made := by
  cases t with
  | named name args origin => exact ⟨name, args, origin, rfl, h⟩
  | array element =>
    obtain ⟨d, -, h⟩ := bind_eq_ok.1 h
    cases h
    cases hdate
  | union alternatives =>
    obtain ⟨ds, -, h⟩ := bind_eq_ok.1 h
    cases h
    cases hdate
  | keyword | literal | object | function | param | unsupported =>
    cases h
    cases hdate

theorem date_of_describeWith (h : describeWith (c.follow hops) t = .ok made) (hdate : made.isDate) :
    ∃ origin, ReflTransGen c.StandsFor t (.named Description.dateName [] origin) ∧
      c.MeansDate origin := by
  induction hops generalizing t made with
  | zero =>
    obtain ⟨name, args, origin, rfl, h⟩ := named_of_isDate h hdate
    obtain ⟨rfl, ⟨rfl, hmeans⟩ | ⟨n, -, -, hn, -⟩⟩ := date_of_follow h hdate
    · exact ⟨origin, .refl, hmeans⟩
    · cases hn
  | succ hops ih =>
    obtain ⟨name, args, origin, rfl, h⟩ := named_of_isDate h hdate
    obtain ⟨rfl, ⟨rfl, hmeans⟩ | ⟨n, target, f, hn, hstands, hf, hfdate⟩⟩ := date_of_follow h hdate
    · exact ⟨origin, .refl, hmeans⟩
    · cases hn
      obtain ⟨origin', hreach, hmeans⟩ := ih hf hfdate
      exact ⟨origin', .head hstands hreach, hmeans⟩

theorem MeansDate.isDate {origin : Option Path} (h : c.MeansDate origin)
    (hmade : c.follow hops Description.dateName [] origin = .ok made) : made.isDate := by
  rcases h with hnone | ⟨d, hclass⟩
  · rw [follow_eq_ok_iff.2 (.date hnone rfl)] at hmade
    cases hmade
    rfl
  · obtain ⟨-, hname⟩ := declares_of_lookup? hclass.1
    rw [hclass.follow] at hmade
    cases hmade
    exact beq_iff_eq.2 hname

theorem isDate_of_standsFor {origin : Option Path} (hmeans : c.MeansDate origin)
    (h : ReflTransGen c.StandsFor t (.named Description.dateName [] origin)) :
    ∀ {hops : Nat} {made : Description},
      describeWith (c.follow hops) t = .ok made → made.isDate := by
  induction h using ReflTransGen.head_induction_on with
  | refl => exact fun hmade => hmeans.isDate hmade
  | head hstands _ ih =>
    obtain ⟨name, origin', d, rfl, hlookup, hgeneric, hkind⟩ := hstands
    intro hops made hmade
    rw [describeWith, follow_alias hlookup hgeneric hkind] at hmade
    cases hops with
    | zero => cases hmade
    | succ n =>
      obtain ⟨f, hf, rfl⟩ := map_eq_ok.1 hmade
      rw [isDate_aliased]
      exact ih hf

/-- **What is taken for the built-in class of dates**: a type that stands for a reference by its
    name without arguments, if that means no declaration, or a class or interface. -/
theorem isDate_iff (h : c.describe t = .ok made) :
    made.isDate ↔ ∃ origin, ReflTransGen c.StandsFor t (.named Description.dateName [] origin) ∧
      c.MeansDate origin :=
  ⟨date_of_describeWith h, fun ⟨_, hstands, hmeans⟩ => isDate_of_standsFor hmeans hstands h⟩

end Catalog

/-! ## Code for a class or interface -/

namespace Session

/-- The two do the same, or neither comes to an end. -/
def SameWork (x y : Outcome Unit × Session) : Prop := x = y ∨ x.1 = .endless ∧ y.1 = .endless

variable {s : Session} {α : Type}

theorem sameWork_emit {x y : Synthesis α} (h : Synthesis.Same x y) (code : α → Code) :
    SameWork (s.emit x code) (s.emit y code) := by
  rcases h with rfl | ⟨hx, hy⟩
  · exact .inl rfl
  · exact .inr ⟨by rw [emit, hx], by rw [emit, hy]⟩

theorem emit_eq_value {x : Synthesis α} {code : α → Code} {t : Session}
    (h : s.emit x code = (.value (), t)) :
    ∃ a, x.outcome = .value a ∧ t.buffer = s.buffer ++ ((code a).shift s.depth).text s.indent := by
  unfold emit at h
  cases ho : x.outcome with
  | value a =>
    rw [ho] at h
    cases h
    exact ⟨a, rfl, rfl⟩
  | error e =>
    rw [ho] at h
    cases h
  | endless =>
    rw [ho] at h
    cases h

theorem emit_inScope (scope : Scope) (x : Synthesis α) (code : α → Code) :
    (({ s with scope := scope } : Session).emit x code).1 = (s.emit x code).1 ∧
      { (({ s with scope := scope } : Session).emit x code).2 with scope := s.scope } =
        (s.emit x code).2 := by
  unfold emit
  cases x.outcome <;> exact ⟨rfl, rfl⟩

theorem expanding_emitObjectChecks (name : String) (a : Accessor) (ms : List Member) :
    s.expanding name (·.emitObjectChecks a ms) =
      s.emit ((s.scope.expand name).objectChecksOf a ms) Check.codeAll :=
  Prod.ext_iff.2 (emit_inScope ..)

theorem expanding_emitRecord (name : String) (ms : List Member) (spread cast : Option String) :
    s.expanding name (·.emitRecord ms spread cast) =
      s.emit ((s.scope.expand name).recordOf ms spread cast) Expr.code :=
  Prod.ext_iff.2 (emit_inScope ..)

/-! ### By members -/

variable {d : Declaration}

/-- The checks of a class or interface that is not the one of dates. -/
theorem sameWork_checks (hd : s.scope.catalog.Declares d)
    (hexp : s.scope.isExpanding d.name = false)
    (hname : d.name ≠ Description.dateName) (a : Accessor) :
    SameWork (s.emitChecks a (.classLike d.name d.members))
      (s.expanding d.name (·.emitObjectChecks a d.members)) := by
  rw [emitChecks, expanding_emitObjectChecks]
  refine sameWork_emit ?_ _
  rw [Scope.checksOf, Synthesis.checksWith, if_neg hname, if_neg (by simp [hexp]),
    Scope.objectChecksOf]
  exact Synthesis.same_objectChecksWith hd.members_occur
    (Catalog.reach_le_expansionBound ..) (Catalog.reach_le_expansionBound ..)

/-- The default of a class or interface that has members and is not the one of dates. -/
theorem sameWork_default (hd : s.scope.catalog.Declares d)
    (hexp : s.scope.isExpanding d.name = false)
    (hname : d.name ≠ Description.dateName) (hmembers : d.members ≠ []) :
    SameWork (s.emitDefault (.classLike d.name d.members))
      (s.expanding d.name (·.emitRecord d.members none none)) := by
  rw [emitDefault, expanding_emitRecord]
  refine sameWork_emit ?_ _
  rw [Scope.defaultOf, Synthesis.defaultWith, if_neg hname, if_neg (by simp [hexp]),
    if_neg (by simpa using hmembers), Scope.recordOf]
  exact Synthesis.same_recordWith hd.members_occur
    (Catalog.reach_le_expansionBound ..) (Catalog.reach_le_expansionBound ..)

/-! ### As dates -/

/-- What writes a text is no different from what writes another one, if the texts begin
    differently. -/
theorem not_sameWork {x y : Synthesis α} {code : α → Code} {v : α} (hx : x.outcome = .value v)
    (hy : ∀ w, y.outcome = .value w →
      ((code v).shift s.depth).text s.indent ≠ ((code w).shift s.depth).text s.indent) :
    ¬ SameWork (s.emit x code) (s.emit y code) := by
  rintro (heq | ⟨hend, -⟩)
  · have hvalue : s.emit x code = (.value (), (s.noted x.notes).write (code v)) := by
      rw [emit, hx]
    obtain ⟨w, hw, hbuffer⟩ := emit_eq_value (heq.symm.trans hvalue)
    obtain ⟨v', hv, hbuffer'⟩ := emit_eq_value hvalue
    cases hx.symm.trans hv
    exact hy w hw (String.append_right_inj .. |>.1 (hbuffer'.symm.trans hbuffer))
  · rw [emit, hx] at hend
    cases hend

theorem not_sameWork_checks (a : Accessor) (name : String) (ms ms' : List Member) :
    ¬ SameWork (s.emitChecks a (.classLike Description.dateName ms))
      (s.expanding name (·.emitObjectChecks a ms')) := by
  rw [emitChecks, expanding_emitObjectChecks]
  refine not_sameWork (v := [.isDate a])
    (by simp [Scope.checksOf, Synthesis.checksWith, pure, Synthesis.pure]) ?_
  intro checks hmade heq
  obtain ⟨_, _, -, rfl, -⟩ := Synthesis.objectChecksWith_eq_value (Synthesis.eq_of_outcome hmade)
  have := congrArg String.toList heq
  simp [Check.codeAll, Check.code, Script.refuseUnless, Script.Helper.id] at this

theorem not_sameWork_default (name : String) (ms ms' : List Member) :
    ¬ SameWork (s.emitDefault (.classLike Description.dateName ms))
      (s.expanding name (·.emitRecord ms' none none)) := by
  rw [emitDefault, expanding_emitRecord]
  refine not_sameWork (v := .newDate)
    (by simp [Scope.defaultOf, Synthesis.defaultWith, pure, Synthesis.pure]) ?_
  intro record hmade heq
  obtain ⟨_, entries, _, -, hrecord, -⟩ := Synthesis.bind_eq_value.1 (Synthesis.eq_of_outcome hmade)
  obtain ⟨-, rfl⟩ := Synthesis.pure_eq_value.1 hrecord
  have := congrArg String.toList heq
  simp [Expr.code] at this

/-! ### References -/

/-- **A reference to a class or interface is written as its members are, unless it has the name of
    the built-in class of dates.**  What is taken for that class refers to it by name, perhaps
    through aliases; but it may well mean a declaration. -/
theorem writes_declaration_iff (s : Session) (a : Accessor) {name : String} {origin : Option Path}
    {d : Declaration} (hclass : s.scope.catalog.DeclaresClass name origin d)
    (hexp : s.scope.isExpanding name = false) :
    (∃ made, s.scope.catalog.describe (.named name [] origin) = .ok made ∧
      (SameWork (s.emitChecks a made) (s.expanding name (·.emitObjectChecks a d.members)) ↔
        name ≠ Description.dateName) ∧
      (d.members ≠ [] →
        (SameWork (s.emitDefault made) (s.expanding name (·.emitRecord d.members none none)) ↔
          name ≠ Description.dateName))) ∧
    ∀ t made, s.scope.catalog.describe t = .ok made →
      (made.isDate ↔ ∃ origin, ReflTransGen s.scope.catalog.StandsFor t
        (.named Description.dateName [] origin) ∧ s.scope.catalog.MeansDate origin) := by
  obtain ⟨hdeclares, rfl⟩ := Catalog.declares_of_lookup? hclass.1
  refine ⟨⟨.classLike d.name d.members, hclass.follow, ⟨fun hsame hname => ?_, fun hname => ?_⟩,
    fun hmembers => ⟨fun hsame hname => ?_, fun hname => ?_⟩⟩, fun _ _ => Catalog.isDate_iff⟩
  · rw [hname] at hsame
    exact not_sameWork_checks a _ _ _ hsame
  · exact sameWork_checks hdeclares hexp hname a
  · rw [hname] at hsame
    exact not_sameWork_default _ _ _ hsame
  · exact sameWork_default hdeclares hexp hname hmembers

end Session

/-- A reference to an interface that is not called as the built-in class. -/
theorem writes_declaration_node : ∃ d, nodeCatalog.DeclaresClass "Node" none d ∧ d.members ≠ [] ∧
    ∃ made, nodeCatalog.describe (.named "Node" [] none) = .ok made ∧
      let s := Session.start nodeCatalog nodeUnit .standard
      Session.SameWork (s.emitChecks .value made)
        (s.expanding "Node" (·.emitObjectChecks .value d.members)) ∧
      Session.SameWork (s.emitDefault made)
        (s.expanding "Node" (·.emitRecord d.members none none)) := by
  have hclass : nodeCatalog.DeclaresClass "Node" none _ := ⟨rfl, rfl, fun _ => nofun⟩
  have hname : "Node" ≠ Description.dateName := by decide
  obtain ⟨⟨made, hmade, hchecks, hdefault⟩, -⟩ := Session.writes_declaration_iff
    (Session.start nodeCatalog nodeUnit .standard) .value hclass rfl
  exact ⟨_, hclass, nofun, made, hmade, hchecks.2 hname, (hdefault nofun).2 hname⟩

/-! ## An interface called as the built-in class -/

/-- A manifest with such an interface and a reference to it. -/
def dateManifest : String :=
  "units=[\x7bpath='a.ts',interfaces=[" ++
    "\x7bname='Date',members=[\x7bname='x',type='number'\x7d]\x7d," ++
    "\x7bname='A',members=[\x7bname='d',type='Date'\x7d]\x7d]\x7d]"

/-- The interface. -/
def dateInterface : Declaration :=
  ⟨"Date", .interfaceType, [], [⟨some "x", some (.keyword .number), false, .property⟩]⟩

/-- The unit of the manifest. -/
def dateUnit : SourceUnit :=
  ⟨⟨"a.ts"⟩, [dateInterface,
    ⟨"A", .interfaceType, [],
      [⟨some "d", some (.named "Date" [] (some ⟨"a.ts"⟩)), false, .property⟩]⟩]⟩

/-- The project of the manifest, with the places at which names and types are written in it. -/
def dateProject : Project :=
  ⟨⟨Manifest.noSettings,
    [⟨⟨"a.ts", ⟨13, 19⟩⟩,
      [⟨⟨"Date", ⟨38, 44⟩⟩, [],
          [⟨some ⟨"x", ⟨60, 63⟩⟩, some ⟨"number", ⟨69, 77⟩⟩, false, .property⟩]⟩,
        ⟨⟨"A", ⟨87, 90⟩⟩, [],
          [⟨some ⟨"d", ⟨106, 109⟩⟩, some ⟨"Date", ⟨115, 121⟩⟩, false, .property⟩]⟩], [], []⟩]⟩,
    ⟨""⟩, ⟨[dateUnit]⟩⟩

theorem load_dateManifest : Project.load dateManifest ⟨""⟩ = .ok dateProject := by
  have hread : (Toml.parse? dateManifest).bind Manifest.ofToml? = some dateProject.manifest := by
    decide +kernel
  exact Project.load_eq_ok.2 ⟨dateProject.manifest, hread, rfl⟩

/-- The reference means the interface, which has a member, and yet its default and its checks are
    those of the built-in class. -/
theorem declared_date_overlooked : Project.load dateManifest ⟨""⟩ = .ok dateProject ∧
    dateProject.catalog.DeclaresClass "Date" (some ⟨"a.ts"⟩) dateInterface ∧
    dateInterface.members ≠ [] ∧
    ∃ made, dateProject.catalog.describe (.named "Date" [] (some ⟨"a.ts"⟩)) = .ok made ∧
      let s := Session.start dateProject.catalog dateUnit .standard
      ¬ Session.SameWork (s.emitChecks .value made)
        (s.expanding "Date" (·.emitObjectChecks .value dateInterface.members)) ∧
      ¬ Session.SameWork (s.emitDefault made)
        (s.expanding "Date" (·.emitRecord dateInterface.members none none)) := by
  have hclass : dateProject.catalog.DeclaresClass "Date" (some ⟨"a.ts"⟩) dateInterface :=
    ⟨by simp [dateProject, dateUnit, dateInterface, Catalog.lookup?, Catalog.unitsAt,
      SourceUnit.find?], rfl, fun _ h => by cases h⟩
  exact ⟨load_dateManifest, hclass, List.cons_ne_nil _ _, _, hclass.follow,
    Session.not_sameWork_checks .value "Date" _ _, Session.not_sameWork_default "Date" _ _⟩

end InterfaceGuards
