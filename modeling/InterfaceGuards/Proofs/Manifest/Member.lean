/-
  The names of members.

  * `Manifest.nodup_members`: the members of a declaration have different names.
  * `Project.distinctMembers_iff`: those of all object types of a project have, just when those of
    the object types have that are written in the texts of its manifest.
  * `repeated_key`: a project with an object type that has a key twice.
-/
import InterfaceGuards.Proofs.Factory.Agreement
import InterfaceGuards.Proofs.Manifest.Written

namespace InterfaceGuards

/-! ## Declared members -/

namespace Manifest

variable {unit baseDir : Path} {m : Manifest} {p : Project}

/-- The members of an interface or a class have the names that are written for them. -/
theorem names_of_readStructure {kind : DeclarationKind} {e : StructureEntry} {d : Declaration}
    (h : readStructure unit kind e = .ok d) :
    d.members.filterMap (·.name) = (e.members.filterMap (·.name)).map (·.value) := by
  obtain ⟨ms, hms, h⟩ := bind_eq_ok.1 h
  cases h
  have hnames : ms.map (·.name) = e.members.map fun e => e.name.map (·.value) :=
    map_of_mapM (fun e' member hread => by
      obtain ⟨type, -, hread⟩ := bind_eq_ok.1 hread
      cases hread
      rfl) hms
  have hmap := congrArg (List.filterMap id) hnames
  simpa [List.filterMap_map, List.map_filterMap, Function.comp_def] using hmap

theorem names_of_readAlias {e : AliasEntry} {d : Declaration} (h : readAlias unit e = .ok d) :
    d.members.filterMap (·.name) = [] := by
  obtain ⟨t, -, h⟩ := bind_eq_ok.1 h
  cases h
  rfl

/-- The members of the declarations of a unit have the names that are written in its entry. -/
theorem memberNames_of_readUnit {e : UnitEntry} {u : SourceUnit}
    (h : readUnit baseDir e = .ok u) :
    u.declarations.map (fun d => d.members.filterMap (·.name)) =
      (declared e).map fun d => (d.members.filterMap (·.name)).map (·.value) := by
  obtain ⟨is, his, h⟩ := bind_eq_ok.1 h
  obtain ⟨cs, hcs, h⟩ := bind_eq_ok.1 h
  obtain ⟨as, has, h⟩ := bind_eq_ok.1 h
  cases h
  have halias : as.map (fun d => d.members.filterMap (·.name)) = e.aliases.map fun _ => [] :=
    map_of_mapM (fun _ _ => names_of_readAlias) has
  simp only [declared, List.map_append, List.map_map]
  rw [map_of_mapM (fun _ _ => names_of_readStructure) his,
    map_of_mapM (fun _ _ => names_of_readStructure) hcs, halias]
  rfl

/-- **The members of a declaration have different names**, as its entry has been accepted. -/
theorem nodup_members (h : m.toProject baseDir = .ok p) {d : Declaration}
    (hd : p.catalog.Declares d) : (d.members.filterMap (·.name)).Nodup := by
  have haccepted := toProject_eq_ok_iff.1 ⟨p, h⟩
  obtain ⟨-, us, hus, rfl⟩ := toProject_eq_ok.1 h
  obtain ⟨u, hu, hd⟩ := hd
  obtain ⟨e, he, hread⟩ := exists_of_mem_mapM hus u hu
  have hnames : d.members.filterMap (·.name) ∈
      (declared e).map fun d => (d.members.filterMap (·.name)).map (·.value) := by
    rw [← memberNames_of_readUnit hread]
    exact List.mem_map_of_mem hd
  obtain ⟨written, hwritten, heq⟩ := List.mem_map.1 hnames
  rw [← heq]
  exact ((haccepted.units e he).declarations written hwritten).members_distinct

end Manifest

namespace Project

variable {text : String} {baseDir : Path} {p : Project}

/-- **Which members of a project have different names.**  Those of an interface or a class always
    have.  So have those of all object types, at whatever depth, just when it is so in what every
    text of the manifest is read as by itself: nothing is asked of the keys that are read. -/
theorem distinctMembers_iff (h : load text baseDir = .ok p) :
    (∀ d, p.catalog.Declares d → (d.members.filterMap (·.name)).Nodup) ∧
    (p.catalog.DistinctMembers ↔ ∀ scope source root, p.manifest.Writes p.baseDir scope source →
      TypeExpr.parse scope source = .ok root → ∀ ms, root.Has (.object ms) →
        (ms.filterMap (·.name)).Nodup) := by
  obtain ⟨m, -, hm⟩ := load_eq_ok.1 h
  have hdeclared := fun d => Manifest.nodup_members hm (d := d)
  refine ⟨hdeclared, fun hdistinct scope source root hwrites hparse ms hms => ?_,
    fun htexts => ⟨fun hd => hdeclared _ hd, fun ho => ?_⟩⟩
  · exact hdistinct.object ((occurs_iff h).2 ⟨scope, source, root, hwrites, hparse, hms⟩)
  · obtain ⟨scope, source, root, hwrites, hparse, hhas⟩ := (occurs_iff h).1 ho
    exact htexts scope source root hwrites hparse _ hhas

end Project

/-! ## Two keys -/

/-- A manifest with an object type that has the keys `a` and another one. -/
def keysManifest (key : String) : String :=
  "units=[\x7bpath='a.ts',interfaces=[\x7bname='I',members=[" ++
    "\x7bname='m',type='\x7b a: number; " ++ key ++ ": string \x7d'\x7d]\x7d]\x7d]"

/-- The members of the object type. -/
def keysMembers (key : String) : List Member :=
  [⟨some "a", some (.keyword .number), false, .property⟩,
    ⟨some key, some (.keyword .string), false, .property⟩]

/-- The interface of the manifest. -/
def keysDeclaration (key : String) : Declaration :=
  ⟨"I", .interfaceType, [], [⟨some "m", some (.object (keysMembers key)), false, .property⟩]⟩

/-- The project of the manifest, with the places at which names and types are written in it, when the
    other key is one character. -/
def keysProject (key : String) : Project :=
  ⟨⟨Manifest.noSettings, [⟨⟨"a.ts", ⟨13, 19⟩⟩, [⟨⟨"I", ⟨38, 41⟩⟩, [],
    [⟨some ⟨"m", ⟨57, 60⟩⟩, some ⟨"\x7b a: number; " ++ key ++ ": string \x7d", ⟨66, 92⟩⟩, false,
      .property⟩]⟩], [], []⟩]⟩, ⟨""⟩, ⟨[⟨⟨"a.ts"⟩, [keysDeclaration key]⟩]⟩⟩

theorem load_keysManifest : Project.load (keysManifest "b") ⟨""⟩ = .ok (keysProject "b") := by
  have hread : (Toml.parse? (keysManifest "b")).bind Manifest.ofToml? =
      some (keysProject "b").manifest := by
    decide +kernel
  exact Project.load_eq_ok.2 ⟨(keysProject "b").manifest, hread, rfl⟩

theorem load_repeatedManifest : Project.load (keysManifest "a") ⟨""⟩ = .ok (keysProject "a") := by
  have hread : (Toml.parse? (keysManifest "a")).bind Manifest.ofToml? =
      some (keysProject "a").manifest := by
    decide +kernel
  exact Project.load_eq_ok.2 ⟨(keysProject "a").manifest, hread, rfl⟩

theorem occurs_keysMembers (key : String) :
    (keysProject key).catalog.Occurs (.object (keysMembers key)) :=
  .member ⟨_, List.mem_singleton.2 rfl, List.mem_singleton.2 rfl⟩ (List.mem_singleton.2 rfl) rfl

theorem mem_keysTypes {key : String} {t : TypeExpr} (h : (keysProject key).catalog.Occurs t) :
    t ∈ [.object (keysMembers key), .keyword .number, .keyword .string] := by
  induction h with
  | member hd hm ht =>
    obtain ⟨u, hu, hd⟩ := hd
    cases List.mem_singleton.1 hu
    cases List.mem_singleton.1 hd
    cases List.mem_singleton.1 hm
    cases ht
    exact List.mem_cons_self
  | target hd hk =>
    obtain ⟨u, hu, hd⟩ := hd
    cases List.mem_singleton.1 hu
    cases List.mem_singleton.1 hd
    cases hk
  | property _ hm ht ih =>
    simp only [List.mem_cons, TypeExpr.object.injEq, reduceCtorEq, List.not_mem_nil, or_false] at ih
    subst ih
    rcases List.mem_pair.1 hm with rfl | rfl <;> cases ht <;> simp
  | element _ ih | alternative _ _ ih | argument _ _ ih => simp at ih

/-- Different keys are read as different members. -/
theorem distinctMembers_keys : Project.load (keysManifest "b") ⟨""⟩ = .ok (keysProject "b") ∧
    (∀ d, (keysProject "b").catalog.Declares d → (d.members.filterMap (·.name)).Nodup) ∧
    ∀ scope source root, (keysProject "b").manifest.Writes (keysProject "b").baseDir scope source →
      TypeExpr.parse scope source = .ok root → ∀ ms, root.Has (.object ms) →
        (ms.filterMap (·.name)).Nodup := by
  obtain ⟨hdeclared, hiff⟩ := Project.distinctMembers_iff load_keysManifest
  refine ⟨load_keysManifest, hdeclared, hiff.1 ⟨fun hd => hdeclared _ hd, fun ho => ?_⟩⟩
  have hms := mem_keysTypes ho
  simp only [List.mem_cons, TypeExpr.object.injEq, reduceCtorEq, List.not_mem_nil, or_false] at hms
  subst hms
  decide

/-- A key that is written twice is accepted, and two members of the object type have one name. -/
theorem repeated_key : Project.load (keysManifest "a") ⟨""⟩ = .ok (keysProject "a") ∧
    (keysProject "a").catalog.Occurs (.object (keysMembers "a")) ∧
    (keysMembers "a").filterMap (·.name) = ["a", "a"] ∧
    ¬ (keysProject "a").catalog.DistinctMembers := by
  have hnames : (keysMembers "a").filterMap (·.name) = ["a", "a"] := rfl
  refine ⟨load_repeatedManifest, occurs_keysMembers "a", hnames, fun hdistinct => ?_⟩
  have hnodup := hdistinct.object (occurs_keysMembers "a")
  rw [hnames] at hnodup
  exact absurd hnodup (by decide)

end InterfaceGuards
