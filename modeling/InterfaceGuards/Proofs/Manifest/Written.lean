/-
  The types of a project are those that are written in its manifest.

  * `Manifest.Writes`: a text for a type in the manifest, with the scope that it is read in.
  * `Catalog.Root`: a type that a member has or that an alias stands for; a type occurs if it is part
    of a root (`occurs_iff_root`).
  * `Project.occurs_iff`: a type occurs in a project just when it is part of what some text of the
    manifest is read as.
  * `Project.readIn_of_occurs`: so every type that occurs looks as what is read does.
-/
import InterfaceGuards.Proofs.Catalog.Occurrence
import InterfaceGuards.Proofs.Manifest.Acceptance
import InterfaceGuards.Proofs.TypeExpr.Shape

namespace InterfaceGuards

open Toml (Spanned)

/-! ## Roots -/

namespace Catalog

variable {c : Catalog} {t : TypeExpr}

/-- A member of some declaration has the type, or an alias stands for it. -/
def Root (c : Catalog) (t : TypeExpr) : Prop :=
  ∃ d, c.Declares d ∧ ((∃ m ∈ d.members, m.type = some t) ∨ d.kind = .alias t)

/-- **A type occurs if it is part of a root**, and only then. -/
theorem occurs_iff_root : c.Occurs t ↔ ∃ root, c.Root root ∧ root.Has t := by
  constructor
  · intro h
    induction h with
    | member hd hm ht => exact ⟨_, ⟨_, hd, .inl ⟨_, hm, ht⟩⟩, .refl⟩
    | target hd hk => exact ⟨_, ⟨_, hd, .inr hk⟩, .refl⟩
    | element _ ih => exact ih.imp fun _ h => ⟨h.1, .element h.2⟩
    | alternative _ ht ih => exact ih.imp fun _ h => ⟨h.1, .alternative h.2 ht⟩
    | property _ hm ht ih => exact ih.imp fun _ h => ⟨h.1, .property h.2 hm ht⟩
    | argument _ ht ih => exact ih.imp fun _ h => ⟨h.1, .argument h.2 ht⟩
  · rintro ⟨root, ⟨d, hd, hroot⟩, hhas⟩
    induction hhas with
    | refl =>
      rcases hroot with ⟨m, hm, ht⟩ | hk
      · exact .member hd hm ht
      · exact .target hd hk
    | element _ ih => exact .element ih
    | alternative _ ht ih => exact .alternative ih ht
    | property _ hm ht ih => exact .property ih hm ht
    | argument _ ht ih => exact .argument ih ht

end Catalog

/-! ## Texts -/

namespace Manifest

variable {scope : TypeExpr.Scope} {unit baseDir : Path} {m : Manifest} {p : Project}
  {t : TypeExpr}

/-- The manifest has a text for a type that is read in the scope: for the type of a member, or for
    what an alias stands for. -/
inductive Writes (m : Manifest) (baseDir : Path) : TypeExpr.Scope → String → Prop
  | member {u d e source} : u ∈ m.units → d ∈ u.interfaces ++ u.classes → e ∈ d.members →
      e.type = some source →
      Writes m baseDir (scopeOf (resolvePath baseDir ⟨u.path.value⟩) d.typeParams) source.value
  | target {u d} : u ∈ m.units → d ∈ u.aliases →
      Writes m baseDir (scopeOf (resolvePath baseDir ⟨u.path.value⟩) d.typeParams) d.type.value

theorem readType_eq_ok {source : Spanned String} :
    readType scope source = .ok t ↔ TypeExpr.parse scope source.value = .ok t := by
  unfold readType
  split
  · rename_i h
    rw [h, Except.ok.injEq, Except.ok.injEq]
  · rename_i h
    simp [h]

/-- The type of a member is what its text is read as. -/
theorem type_of_readMember {e : MemberEntry} {member : Member}
    (h : readMember scope e = .ok member) : member.type = some t ↔
      ∃ source, e.type = some source ∧ TypeExpr.parse scope source.value = .ok t := by
  obtain ⟨type, htype, h⟩ := bind_eq_ok.1 h
  cases h
  cases he : e.type with
  | none =>
    rw [he] at htype
    cases htype
    simp
  | some source =>
    rw [he] at htype
    obtain ⟨u, hu, htype⟩ := bind_eq_ok.1 htype
    cases htype
    rw [readType_eq_ok] at hu
    simp [hu]

/-- The roots that an interface or a class has are what the texts of its members are read as. -/
theorem root_of_readStructure {kind : DeclarationKind} (hk : ∀ t, kind ≠ .alias t)
    {e : StructureEntry} {d : Declaration} (h : readStructure unit kind e = .ok d) :
    ((∃ m ∈ d.members, m.type = some t) ∨ d.kind = .alias t) ↔
      ∃ e' ∈ e.members, ∃ source, e'.type = some source ∧
        TypeExpr.parse (scopeOf unit e.typeParams) source.value = .ok t := by
  obtain ⟨ms, hms, h⟩ := bind_eq_ok.1 h
  cases h
  constructor
  · rintro (⟨member, hmember, ht⟩ | halias)
    · obtain ⟨e', he', hread⟩ := exists_of_mem_mapM hms member hmember
      exact ⟨e', he', (type_of_readMember hread).1 ht⟩
    · exact absurd halias (hk t)
  · rintro ⟨e', he', source, hsource, hparse⟩
    obtain ⟨member, hmember, hread⟩ := exists_mem_of_mapM hms e' he'
    exact .inl ⟨member, hmember, (type_of_readMember hread).2 ⟨source, hsource, hparse⟩⟩

/-- The root that an alias has is what its text is read as. -/
theorem root_of_readAlias {e : AliasEntry} {d : Declaration} (h : readAlias unit e = .ok d) :
    ((∃ m ∈ d.members, m.type = some t) ∨ d.kind = .alias t) ↔
      TypeExpr.parse (scopeOf unit e.typeParams) e.type.value = .ok t := by
  obtain ⟨u, hu, h⟩ := bind_eq_ok.1 h
  cases h
  rw [readType_eq_ok] at hu
  have hscope : TypeExpr.parse (scopeOf unit e.typeParams) e.type.value = .ok u := hu
  rw [hscope]
  simp

/-- **The roots of a unit are what the texts of its entry are read as.** -/
theorem root_of_readUnit {e : UnitEntry} {u : SourceUnit} (h : readUnit baseDir e = .ok u) :
    (∃ d ∈ u.declarations, (∃ m ∈ d.members, m.type = some t) ∨ d.kind = .alias t) ↔
      (∃ d ∈ e.interfaces ++ e.classes, ∃ e' ∈ d.members, ∃ source, e'.type = some source ∧
        TypeExpr.parse (scopeOf (resolvePath baseDir ⟨e.path.value⟩) d.typeParams) source.value =
          .ok t) ∨
      ∃ d ∈ e.aliases,
        TypeExpr.parse (scopeOf (resolvePath baseDir ⟨e.path.value⟩) d.typeParams) d.type.value =
          .ok t := by
  obtain ⟨is, his, h⟩ := bind_eq_ok.1 h
  obtain ⟨cs, hcs, h⟩ := bind_eq_ok.1 h
  obtain ⟨as, has, h⟩ := bind_eq_ok.1 h
  cases h
  simp only [List.mem_append]
  constructor
  · rintro ⟨d, (hd | hd) | hd, hroot⟩
    · obtain ⟨e', he', hread⟩ := exists_of_mem_mapM his d hd
      exact .inl ⟨e', .inl he', (root_of_readStructure (by simp) hread).1 hroot⟩
    · obtain ⟨e', he', hread⟩ := exists_of_mem_mapM hcs d hd
      exact .inl ⟨e', .inr he', (root_of_readStructure (by simp) hread).1 hroot⟩
    · obtain ⟨e', he', hread⟩ := exists_of_mem_mapM has d hd
      exact .inr ⟨e', he', (root_of_readAlias hread).1 hroot⟩
  · rintro (⟨e', he' | he', htext⟩ | ⟨e', he', htext⟩)
    · obtain ⟨d, hd, hread⟩ := exists_mem_of_mapM his e' he'
      exact ⟨d, .inl (.inl hd), (root_of_readStructure (by simp) hread).2 htext⟩
    · obtain ⟨d, hd, hread⟩ := exists_mem_of_mapM hcs e' he'
      exact ⟨d, .inl (.inr hd), (root_of_readStructure (by simp) hread).2 htext⟩
    · obtain ⟨d, hd, hread⟩ := exists_mem_of_mapM has e' he'
      exact ⟨d, .inr hd, (root_of_readAlias hread).2 htext⟩

/-- **The roots of a project are what the texts of its manifest are read as.** -/
theorem root_iff (h : m.toProject baseDir = .ok p) : p.catalog.Root t ↔
    ∃ scope source, m.Writes baseDir scope source ∧ TypeExpr.parse scope source = .ok t := by
  obtain ⟨-, us, hus, rfl⟩ := toProject_eq_ok.1 h
  constructor
  · rintro ⟨d, ⟨u, hu, hd⟩, hroot⟩
    obtain ⟨e, he, hread⟩ := exists_of_mem_mapM hus u hu
    rcases (root_of_readUnit hread).1 ⟨d, hd, hroot⟩ with
      ⟨e', he', e'', he'', source, hsource, hparse⟩ | ⟨e', he', hparse⟩
    · exact ⟨_, _, .member he he' he'' hsource, hparse⟩
    · exact ⟨_, _, .target he he', hparse⟩
  · rintro ⟨scope, source, hwrites, hparse⟩
    cases hwrites with
    | member he he' he'' hsource =>
      obtain ⟨u, hu, hread⟩ := exists_mem_of_mapM hus _ he
      obtain ⟨d, hd, hroot⟩ :=
        (root_of_readUnit hread).2 (.inl ⟨_, he', _, he'', _, hsource, hparse⟩)
      exact ⟨d, ⟨u, hu, hd⟩, hroot⟩
    | target he he' =>
      obtain ⟨u, hu, hread⟩ := exists_mem_of_mapM hus _ he
      obtain ⟨d, hd, hroot⟩ := (root_of_readUnit hread).2 (.inr ⟨_, he', hparse⟩)
      exact ⟨d, ⟨u, hu, hd⟩, hroot⟩

end Manifest

namespace Project

variable {text : String} {baseDir : Path} {p : Project} {t : TypeExpr}

/-- **What occurs in a project** are the parts of what the texts of its manifest are read as. -/
theorem occurs_iff (h : load text baseDir = .ok p) : p.catalog.Occurs t ↔
    ∃ scope source root, p.manifest.Writes p.baseDir scope source ∧
      TypeExpr.parse scope source = .ok root ∧ root.Has t := by
  obtain ⟨m, -, hm⟩ := load_eq_ok.1 h
  obtain ⟨-, us, -, rfl⟩ := Manifest.toProject_eq_ok.1 hm
  rw [Catalog.occurs_iff_root]
  constructor
  · rintro ⟨root, hroot, hhas⟩
    obtain ⟨scope, source, hwrites, hparse⟩ := (Manifest.root_iff hm).1 hroot
    exact ⟨scope, source, root, hwrites, hparse, hhas⟩
  · rintro ⟨scope, source, root, hwrites, hparse, hhas⟩
    exact ⟨root, (Manifest.root_iff hm).2 ⟨scope, source, hwrites, hparse⟩, hhas⟩

/-- **Every type that occurs in a project looks as what is read does**, in the scope of its
    declaration. -/
theorem readIn_of_occurs (h : load text baseDir = .ok p) (ht : p.catalog.Occurs t) :
    ∃ scope, t.ReadIn scope := by
  obtain ⟨scope, source, root, -, hparse, hhas⟩ := (occurs_iff h).1 ht
  exact ⟨scope, (TypeExpr.readIn_of_parse hparse).of_has hhas⟩

end Project

end InterfaceGuards
