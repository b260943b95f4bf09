/-
  The declarations of a unit have different names.

  * `Project.nodup_names`: no unit of a project declares a name twice.
-/
import InterfaceGuards.Proofs.Manifest.Proper

namespace InterfaceGuards

namespace Manifest

/-- A unit declares what its entry declares. -/
theorem names_of_readUnit {baseDir : Path} {e : UnitEntry} {u : SourceUnit}
    (h : readUnit baseDir e = .ok u) :
    u.declarations.map (·.name) = (declared e).map (·.name.value) := by
  have hheads := congrArg (List.map Prod.fst) (heads_of_readUnit h)
  rwa [List.map_map, List.map_map] at hheads

theorem nodup_names {m : Manifest} {baseDir : Path} {p : Project} (h : m.toProject baseDir = .ok p)
    {u : SourceUnit} (hu : u ∈ p.catalog.units) : (u.declarations.map (·.name)).Nodup := by
  have haccepted := toProject_eq_ok_iff.1 ⟨p, h⟩
  obtain ⟨-, us, hus, rfl⟩ := toProject_eq_ok.1 h
  obtain ⟨e, he, hread⟩ := exists_of_mem_mapM hus u hu
  rw [names_of_readUnit hread]
  exact (haccepted.units e he).names_distinct

end Manifest

/-- **No unit of a project declares a name twice.** -/
theorem Project.nodup_names {text : String} {baseDir : Path} {p : Project}
    (h : load text baseDir = .ok p) {u : SourceUnit} (hu : u ∈ p.catalog.units) :
    (u.declarations.map (·.name)).Nodup := by
  obtain ⟨m, -, hm⟩ := load_eq_ok.1 h
  exact Manifest.nodup_names hm hu

end InterfaceGuards
