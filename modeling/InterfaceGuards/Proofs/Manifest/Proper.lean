/-
  The declarations of a project have proper names.

  * `Declaration.Proper`: the declaration and its type parameters have proper names.
  * `Project.proper_of_load`: every declaration of a project is proper.
-/
import InterfaceGuards.Proofs.Manifest.Acceptance

namespace InterfaceGuards

/-- The declaration and its type parameters have proper names. -/
structure Declaration.Proper (d : Declaration) : Prop where
  name : Manifest.ProperName d.name
  params : ∀ p ∈ d.typeParams, Manifest.ProperName p

namespace Manifest

variable {unit : Path}

/-- The names that the head of a declaration holds: its own and those of its type parameters. -/
def Declared.head (d : Declared) : String × List String :=
  (d.name.value, d.typeParams.map (·.value))

theorem head_of_readStructure {kind : DeclarationKind} {e : StructureEntry} {d : Declaration}
    (h : readStructure unit kind e = .ok d) :
    (d.name, d.typeParams) = (e.name.value, e.typeParams.map (·.value)) := by
  obtain ⟨ms, -, h⟩ := bind_eq_ok.1 h
  cases h
  rfl

theorem head_of_readAlias {e : AliasEntry} {d : Declaration} (h : readAlias unit e = .ok d) :
    (d.name, d.typeParams) = (e.name.value, e.typeParams.map (·.value)) := by
  obtain ⟨t, -, h⟩ := bind_eq_ok.1 h
  cases h
  rfl

/-- The declarations of a unit have the heads that are written in its entry. -/
theorem heads_of_readUnit {baseDir : Path} {e : UnitEntry} {u : SourceUnit}
    (h : readUnit baseDir e = .ok u) :
    u.declarations.map (fun d => (d.name, d.typeParams)) = (declared e).map Declared.head := by
  obtain ⟨is, his, h⟩ := bind_eq_ok.1 h
  obtain ⟨cs, hcs, h⟩ := bind_eq_ok.1 h
  obtain ⟨as, has, h⟩ := bind_eq_ok.1 h
  cases h
  simp only [declared, List.map_append, List.map_map]
  rw [map_of_mapM (fun _ _ => head_of_readStructure) his,
    map_of_mapM (fun _ _ => head_of_readStructure) hcs,
    map_of_mapM (fun _ _ => head_of_readAlias) has]
  rfl

theorem proper_of_toProject {m : Manifest} {baseDir : Path} {p : Project}
    (h : m.toProject baseDir = .ok p) {u : SourceUnit} (hu : u ∈ p.catalog.units) :
    ∀ d ∈ u.declarations, d.Proper := by
  have haccepted := toProject_eq_ok_iff.1 ⟨p, h⟩
  obtain ⟨-, us, hus, rfl⟩ := toProject_eq_ok.1 h
  obtain ⟨e, he, hread⟩ := exists_of_mem_mapM hus u hu
  intro d hd
  have hhead : (d.name, d.typeParams) ∈ (declared e).map Declared.head := by
    rw [← heads_of_readUnit hread]
    exact List.mem_map_of_mem hd
  obtain ⟨written, hwritten, heq⟩ := List.mem_map.1 hhead
  obtain ⟨hname, hparams⟩ := Prod.mk.inj heq
  have hproper := (haccepted.units e he).declarations written hwritten
  refine ⟨hname ▸ hproper.name_proper, fun p hp => ?_⟩
  rw [← hparams] at hp
  obtain ⟨param, hparam, rfl⟩ := List.mem_map.1 hp
  exact hproper.params_proper param hparam

end Manifest

/-- **Every declaration of a project has a proper name**, and so have its type parameters. -/
theorem Project.proper_of_load {text : String} {baseDir : Path} {p : Project}
    (h : load text baseDir = .ok p) {u : SourceUnit} (hu : u ∈ p.catalog.units) :
    ∀ d ∈ u.declarations, d.Proper := by
  obtain ⟨m, -, hm⟩ := load_eq_ok.1 h
  exact Manifest.proper_of_toProject hm hu

end InterfaceGuards
