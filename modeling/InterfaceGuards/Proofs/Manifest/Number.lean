/-
  Every number in a project is a number.

  * `numbered_of_occurs`: every literal number in a type that is written in a manifest is a number
    in canonical form.
-/
import InterfaceGuards.Proofs.Catalog.Occurrence
import InterfaceGuards.Proofs.Manifest.Load
import InterfaceGuards.Proofs.TypeExpr.Number

namespace InterfaceGuards

/-- Every type that the declaration is made of has only numbers in it. -/
structure Declaration.Numbered (d : Declaration) : Prop where
  member : ∀ m ∈ d.members, ∀ t, m.type = some t → t.Numbered
  target : ∀ t, d.kind = .alias t → t.Numbered

theorem Catalog.Occurs.numbered {c : Catalog} (hc : ∀ d, c.Declares d → d.Numbered)
    {t : TypeExpr} (h : c.Occurs t) : t.Numbered := by
  induction h with
  | member hd hm ht => exact (hc _ hd).member _ hm _ ht
  | target hd ht => exact (hc _ hd).target _ ht
  | element _ ih => cases ih with | array h => exact h
  | alternative _ ht ih => cases ih with | union h => exact h _ ht
  | property _ hm ht ih => cases ih with | object h => exact h _ hm _ ht
  | argument _ ht ih => cases ih with | named h => exact h _ ht

namespace Manifest

variable {scope : TypeExpr.Scope} {unit : Path}

theorem numbered_of_readType {source : Toml.Spanned String} {t : TypeExpr}
    (h : readType scope source = .ok t) : t.Numbered := by
  unfold readType at h
  split at h
  · rename_i ht
    cases h
    exact TypeExpr.numbered_of_parse ht
  · cases h

theorem numbered_of_readMember {e : MemberEntry} {m : Member} (h : readMember scope e = .ok m)
    {t : TypeExpr} (ht : m.type = some t) : t.Numbered := by
  obtain ⟨type, htype, h⟩ := bind_eq_ok.1 h
  cases h
  obtain rfl : type = some t := ht
  cases he : e.type with
  | none => rw [he] at htype; cases htype
  | some source =>
    rw [he] at htype
    obtain ⟨u, hu, htype⟩ := bind_eq_ok.1 htype
    cases htype
    exact numbered_of_readType hu

theorem numbered_of_readStructure {kind : DeclarationKind} (hk : ∀ t, kind ≠ .alias t)
    {e : StructureEntry} {d : Declaration} (h : readStructure unit kind e = .ok d) :
    d.Numbered := by
  obtain ⟨ms, hms, h⟩ := bind_eq_ok.1 h
  cases h
  refine ⟨fun m hm t ht => ?_, fun t ht => absurd ht (hk t)⟩
  obtain ⟨e', -, he'⟩ := exists_of_mem_mapM hms m hm
  exact numbered_of_readMember he' ht

theorem numbered_of_readAlias {e : AliasEntry} {d : Declaration} (h : readAlias unit e = .ok d) :
    d.Numbered := by
  obtain ⟨t, ht, h⟩ := bind_eq_ok.1 h
  cases h
  refine ⟨fun m hm => absurd hm List.not_mem_nil, fun u hu => ?_⟩
  cases hu
  exact numbered_of_readType ht

theorem numbered_of_readUnit {baseDir : Path} {e : UnitEntry} {u : SourceUnit}
    (h : readUnit baseDir e = .ok u) : ∀ d ∈ u.declarations, d.Numbered := by
  obtain ⟨is, his, h⟩ := bind_eq_ok.1 h
  obtain ⟨cs, hcs, h⟩ := bind_eq_ok.1 h
  obtain ⟨as, has, h⟩ := bind_eq_ok.1 h
  cases h
  intro d hd
  simp only [List.mem_append] at hd
  rcases hd with (hd | hd) | hd
  · obtain ⟨e', -, he'⟩ := exists_of_mem_mapM his d hd
    exact numbered_of_readStructure (by simp) he'
  · obtain ⟨e', -, he'⟩ := exists_of_mem_mapM hcs d hd
    exact numbered_of_readStructure (by simp) he'
  · obtain ⟨e', -, he'⟩ := exists_of_mem_mapM has d hd
    exact numbered_of_readAlias he'

/-- **No type in a project has not-a-number in it.** -/
theorem numbered_of_occurs {m : Manifest} {baseDir : Path} {p : Project}
    (h : m.toProject baseDir = .ok p) {t : TypeExpr} (ht : p.catalog.Occurs t) : t.Numbered := by
  obtain ⟨-, us, hus, rfl⟩ := toProject_eq_ok.1 h
  refine ht.numbered fun d ⟨u, hu, hd⟩ => ?_
  obtain ⟨e, -, he⟩ := exists_of_mem_mapM hus u hu
  exact numbered_of_readUnit he d hd

end Manifest

theorem Project.numbered_of_occurs {text : String} {baseDir : Path} {p : Project}
    (h : load text baseDir = .ok p) {t : TypeExpr} (ht : p.catalog.Occurs t) : t.Numbered := by
  obtain ⟨m, -, hm⟩ := load_eq_ok.1 h
  exact Manifest.numbered_of_occurs hm ht

end InterfaceGuards
