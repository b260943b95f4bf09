/-
  When the factory and the guard of an interface come to an end.

  * `Scope.Inside.stack`: no name is being expanded twice, and only declared ones are.
  * `Catalog.synthesis_ends_iff`: the making of a factory and a guard ends unless a type is met
    again below itself with nothing more being expanded; so it always ends where no alias stands for
    an array or a union of objects.
  * `expansion_endless_list`: an alias that does and refers to itself is expanded without end.
-/
import InterfaceGuards.Proofs.Manifest.Load
import InterfaceGuards.Proofs.Synthesis.Direct

namespace InterfaceGuards

open Relation (ReflTransGen TransGen)
open Script (Accessor Check)
open Expansion (Calls Ends Loops Fits)

namespace Scope

variable {s s' : Scope}

/-- Further inside, too, no name is being expanded twice, and only declared ones are. -/
theorem Inside.stack (h : s.Inside s') (hnodup : s.expanding.Nodup)
    (hnames : s.expanding ⊆ s.catalog.names) :
    s'.expanding.Nodup ∧ s'.expanding ⊆ s.catalog.names := by
  obtain ⟨-, -, names, hexp, hnames', hfresh⟩ := h
  rw [hexp]
  refine ⟨List.nodup_append.2 ⟨hnames', hnodup, fun a ha b hb => ?_⟩, fun name hn => ?_⟩
  · rintro rfl
    exact (hfresh a ha).1 hb
  · rcases List.mem_append.1 hn with hn | hn
    · exact (hfresh name hn).2
    · exact hnames hn

end Scope

/-- **When the making of a factory and a guard ends.**  On the way no name is being expanded twice,
    and only declared ones are, so that the names being expanded are never more than those declared.
    The calls end exactly if no type is met again below itself while no further name is expanded,
    which cannot happen where aliases stand for no arrays or unions of object types.  The factory's
    record is made exactly if its calls end; and guards are made, or it is an error, if theirs do,
    and only then.  What has no end within the bound on calls has none within any other. -/
theorem Catalog.synthesis_ends_iff {c : Catalog} {u : SourceUnit} {d : Declaration}
    (hu : u ∈ c.units) (hd : d ∈ u.interfaces) :
    let s := (Scope.start c u).inside d
    let x : Expansion := ⟨s, .members d.members⟩
    (∀ p y, ReflTransGen (Calls p) x y →
      y.scope.expanding.Nodup ∧ y.scope.expanding ⊆ c.names ∧
        y.scope.expanding.length ≤ c.names.dedup.length) ∧
    (∀ p, Ends p x ↔ ¬ Loops p x) ∧
    (c.Direct → ∀ p, Ends p x) ∧
    ((∃ record, (s.recordOf d.members (some "params") (some d.typeName)).outcome = .value record) ↔
      Ends .factory x) ∧
    (Ends .guard x → (s.objectChecksOf .value d.members).outcome ≠ .endless) ∧
    ((∃ checks, (s.objectChecksOf .value d.members).outcome = .value checks) →
      Ends .guard x) ∧
    ((s.recordOf d.members (some "params") (some d.typeName)).outcome = .endless →
      ∀ bound, (Synthesis.recordWith (Synthesis.defaultOfType bound) s d.members (some "params")
        (some d.typeName)).outcome = .endless) ∧
    ((s.objectChecksOf .value d.members).outcome = .endless →
      ∀ bound, (Synthesis.objectChecksWith (Synthesis.checksOfType bound) s .value
        d.members).outcome = .endless) := by
  intro s x
  have hdecl : c.Declares d := ⟨u, hu, (List.mem_filter.1 hd).1⟩
  have hts := s.closed_typesBelow d.members
  have hfits := s.fits_members d.members
  refine ⟨fun p y hy => ?_, fun p => s.members_ends_iff d.members, fun hc p => ?_,
    Scope.recordOf_value_iff, Scope.objectChecksOf_ne_endless, ?_,
    Scope.recordOf_endless hdecl.members_occur, Scope.objectChecksOf_endless hdecl.members_occur⟩
  · have hin := hfits.inside_of_run hts hy
    obtain ⟨hnodup, hnames⟩ := hin.stack (List.nodup_singleton d.name)
      (List.cons_subset.2 ⟨hdecl.mem_names, List.nil_subset _⟩)
    refine ⟨hnodup, hnames, (List.subperm_of_subset hnodup fun name hn => ?_).length_le⟩
    exact List.mem_dedup.2 (hnames hn)
  · exact hfits.ends_of_direct hc hts
  · rintro ⟨checks, hchecks⟩
    exact Scope.ends_of_objectChecksOf (Synthesis.eq_of_outcome hchecks)

/-- An interface that refers to itself in the catalog of its unit alone. -/
theorem synthesis_ends_node : ∃ d ∈ nodeUnit.interfaces, nodeUnit ∈ nodeCatalog.units ∧
    ∀ p, Ends p ⟨(Scope.start nodeCatalog nodeUnit).inside d, .members d.members⟩ := by
  have hd : _ ∈ nodeUnit.interfaces := List.mem_cons_self ..
  have hu : nodeUnit ∈ nodeCatalog.units := List.mem_singleton.2 rfl
  have hdirect : nodeCatalog.Direct := by
    rintro d t ⟨u, hu, hd⟩ hk
    obtain rfl := List.mem_singleton.1 hu
    obtain rfl := List.mem_singleton.1 hd
    cases hk
  obtain ⟨-, -, hends, -⟩ := Catalog.synthesis_ends_iff hu hd
  exact ⟨_, hd, hu, hends hdirect⟩

/-! ## An alias of an array of objects that refers to itself -/

/-- A manifest with such an alias, and an interface that uses it. -/
def listManifest : String :=
  "units=[\x7bpath='a.ts',interfaces=[\x7bname='I',members=[\x7bname='a',type='A'\x7d]\x7d]," ++
    "aliases=[\x7bname='A',type='\x7b x: A \x7d[]'\x7d]\x7d]"

/-- The alias by its name. -/
def listAlias : TypeExpr := .named "A" [] (some ⟨"a.ts"⟩)

/-- The elements of the array. -/
def listMembers : List Member := [⟨some "x", some listAlias, false, .property⟩]

/-- The interface that uses the alias. -/
def listInterface : Declaration :=
  ⟨"I", .interfaceType, [], [⟨some "a", some listAlias, false, .property⟩]⟩

/-- The unit of the manifest. -/
def listUnit : SourceUnit :=
  ⟨⟨"a.ts"⟩, [listInterface, ⟨"A", .alias (.array (.object listMembers)), [], []⟩]⟩

/-- The project of the manifest, with the places at which names and types are written in it. -/
def listProject : Project :=
  ⟨⟨Manifest.noSettings,
    [⟨⟨"a.ts", ⟨13, 19⟩⟩,
      [⟨⟨"I", ⟨38, 41⟩⟩, [],
        [⟨some ⟨"a", ⟨57, 60⟩⟩, some ⟨"A", ⟨66, 69⟩⟩, false, .property⟩]⟩], [],
      [⟨⟨"A", ⟨89, 92⟩⟩, ⟨"\x7b x: A \x7d[]", ⟨98, 110⟩⟩, []⟩]⟩]⟩,
    ⟨""⟩, ⟨[listUnit]⟩⟩

/-- The name of the alias is lost: it is described as the array alone. -/
theorem describe_listAlias :
    listProject.catalog.describe listAlias = .ok (.array (.object listMembers)) :=
  rfl

/-- The alias is checked by checking members of its own type, with nothing more being expanded. -/
theorem checksOfType_listAlias (bound : Nat) : ∀ {s : Scope} {a : Accessor},
    s.catalog = listProject.catalog →
      (Synthesis.checksOfType bound s a listAlias).outcome = .endless := by
  induction bound with
  | zero => exact fun _ => rfl
  | succ bound ih =>
    intro s a hs
    rw [Synthesis.checksOfType, hs, describe_listAlias, Synthesis.ofDescribed_ok_bind,
      Synthesis.checksWith, Synthesis.checksWith, Synthesis.bind_eq_endless]
    refine .inr ⟨(), rfl, Synthesis.bind_pure_endless_iff.2 ?_⟩
    rw [Synthesis.objectChecksWith_endless_iff]
    exact Synthesis.bind_eq_endless.2 (.inl (Synthesis.bind_pure_endless_iff.2 (ih hs)))

/-- The guard of the interface has no end, however far its type is followed. -/
theorem expansion_endless_list : Project.load listManifest ⟨""⟩ = .ok listProject ∧
    listInterface ∈ listUnit.interfaces ∧ listUnit ∈ listProject.catalog.units ∧
    let s := (Scope.start listProject.catalog listUnit).inside listInterface
    ¬ Ends .guard ⟨s, .members listInterface.members⟩ ∧
      ∀ bound, (Synthesis.objectChecksWith (Synthesis.checksOfType bound) s .value
        listInterface.members).outcome = .endless := by
  have hread : (Toml.parse? listManifest).bind Manifest.ofToml? = some listProject.manifest := by
    decide +kernel
  refine ⟨Project.load_eq_ok.2 ⟨listProject.manifest, hread, rfl⟩, List.mem_cons_self ..,
    List.mem_singleton.2 rfl, fun hends => ?_, fun bound => ?_⟩
  · -- The alias is met again as the type of a member of its elements.
    let s := (Scope.start listProject.catalog listUnit).inside listInterface
    have hx : Calls .guard ⟨s, .members listInterface.members⟩ ⟨s.within "a", .type listAlias⟩ :=
      .member (List.mem_cons_self ..) rfl
    refine hends.not_loops ⟨s.within "a", listAlias, (s.within "a").within "x", .single hx, ?_, rfl⟩
    exact ((TransGen.single (.described describe_listAlias)).tail .element).tail .object |>.tail
      (.member (List.mem_cons_self ..) rfl)
  · rw [Synthesis.objectChecksWith_endless_iff]
    exact Synthesis.bind_eq_endless.2
      (.inl (Synthesis.bind_pure_endless_iff.2 (checksOfType_listAlias bound rfl)))

end InterfaceGuards
