/-
  The output of a unit when more is declared.

  * `interfaceScripts_of_extends`: factories and guards that could be made stay as they are.
  * `build_add`: one more unit changes nothing in the outputs of those that were there before.

  The unit that is added may declare any name but `Date`, also names that others declare; its
  path has to be its own.
-/
import InterfaceGuards.Proofs.Synthesis.Extension
import InterfaceGuards.Proofs.Unit.Build
import Mathlib.Data.List.Basic

namespace InterfaceGuards

variable {c c' : Catalog}

namespace Scope

variable {s : Scope}

theorem interfaceScript_of_extends (he : c'.Extends c) (hc : s.catalog = c) {d : Declaration}
    (hd : c.Declares d) {n : Notes} {i : InterfaceScript}
    (h : s.interfaceScript d = ⟨n, .value i⟩) :
    (s.inCatalog c').interfaceScript d = ⟨n, .value i⟩ := by
  obtain ⟨-, j, k, hrecord, hchecks, -⟩ := interfaceScript_eq_value h
  have hrecord' : ((s.inside d).inCatalog c').recordOf d.members (some "params") (some d.typeName) =
      (s.inside d).recordOf d.members (some "params") (some d.typeName) :=
    recordOf_of_extends (s := s.inside d) he hc hd.members_occur hchecks (by simp [hrecord])
  have hchecks' : ((s.inside d).inCatalog c').objectChecksOf .value d.members =
      (s.inside d).objectChecksOf .value d.members := by
    rw [hchecks]
    exact objectChecksOf_of_extends (s := s.inside d) he hc hd.members_occur hchecks
  rw [← h]
  show (do
    let record ← ((s.inside d).inCatalog c').recordOf d.members (some "params") (some d.typeName)
    let checks ← ((s.inside d).inCatalog c').objectChecksOf .value d.members
    pure (⟨d, record, checks⟩ : InterfaceScript)) = s.interfaceScript d
  rw [hrecord', hchecks']
  rfl

/-- **Factories and guards that could be made stay as they are** when more is declared. -/
theorem interfaceScripts_of_extends (he : c'.Extends c) (hc : s.catalog = c) :
    ∀ {ds : List Declaration} {is : List InterfaceScript} {n : Notes}, (∀ d ∈ ds, c.Declares d) →
      s.interfaceScripts ds = .ok (is, n) → (s.inCatalog c').interfaceScripts ds = .ok (is, n)
  | [], is, n, _, h => h
  | d :: ds, is, n, hds, h => by
    obtain ⟨i, j, more, k, hmade, hrest, rfl, rfl⟩ := interfaceScripts_cons h
    have hmade' := interfaceScript_of_extends he hc (hds d (by simp)) hmade
    have hrest' := interfaceScripts_of_extends he hc (fun e he => hds e (by simp [he])) hrest
    rw [interfaceScripts, hmade', hrest']

end Scope

/-- Output that could be made stays as it is when more is declared. -/
theorem Layout.build_of_extends (he : c'.Extends c) {l : Layout} {u : SourceUnit}
    (hu : u ∈ c.units) {made : GeneratedUnit × List Diagnostic} (h : l.build c u = .ok made) :
    l.build c' u = .ok made := by
  obtain ⟨out, hout, h⟩ := bind_eq_ok.1 h
  obtain ⟨⟨is, n⟩, his, h⟩ := bind_eq_ok.1 h
  refine bind_eq_ok.2 ⟨out, hout, bind_eq_ok.2 ⟨(is, n), ?_, h⟩⟩
  have hdeclared : ∀ d ∈ u.interfaces, c.Declares d :=
    fun d hd => ⟨u, hu, (List.mem_filter.1 hd).1⟩
  exact Scope.interfaceScripts_of_extends (s := .start c u) he rfl hdeclared his

/-- **A unit that is added changes no output.**  Where every name knows its unit, a unit that was
    there before and has an output gets the same output, with the same findings, when another unit
    is added at the end that is at a path of its own and declares no `Date`. -/
theorem build_add {v : SourceUnit} (ho : c.OriginsKnown)
    (hv : ∀ u ∈ c.units, u.path.components ≠ v.path.components)
    (hdate : ∀ d ∈ v.declarations, d.name ≠ Description.dateName) {l : Layout} {u : SourceUnit}
    (hu : u ∈ c.units) {g : GeneratedUnit} {findings : List Diagnostic}
    (h : l.build c u = .ok (g, findings)) : l.build (c.add v) u = .ok (g, findings) :=
  Layout.build_of_extends (Catalog.extends_add ho hv hdate) hu h

/-! ## A unit that declares the names of others -/

/-- The unit of an interface that refers to itself, to one of another unit and to the built-in
    class. -/
def shopUnit : SourceUnit :=
  ⟨⟨"shop.ts"⟩, [⟨"Shop", .interfaceType, [],
    [⟨some "owner", some (.named "Person" [] (some ⟨"shop.ts"⟩)), false, .property⟩,
      ⟨some "opened", some (.named "Date" [] (some ⟨"shop.ts"⟩)), false, .property⟩,
      ⟨some "next", some (.named "Shop" [] (some ⟨"shop.ts"⟩)), true, .property⟩]⟩]⟩

/-- The other unit. -/
def personUnit : SourceUnit :=
  ⟨⟨"person.ts"⟩, [⟨"Person", .interfaceType, [],
    [⟨some "name", some (.keyword .string), false, .property⟩]⟩]⟩

/-- The catalog of both. -/
def shopCatalog : Catalog := ⟨[shopUnit, personUnit]⟩

/-- A unit that declares the names of both. -/
def namesakesUnit : SourceUnit :=
  ⟨⟨"namesakes.ts"⟩, [⟨"Person", .interfaceType, [],
      [⟨some "age", some (.keyword .number), false, .property⟩]⟩,
    ⟨"Shop", .alias (.keyword .null), [], []⟩]⟩

/-- The types written in the catalog. -/
def shopTypes : List TypeExpr :=
  .keyword .string :: ["Person", "Date", "Shop"].map (.named · [] (some ⟨"shop.ts"⟩))

theorem mem_shopTypes {t : TypeExpr} (h : shopCatalog.Occurs t) : t ∈ shopTypes := by
  induction h with
  | member hd hm ht =>
    obtain ⟨u, hu, hd⟩ := hd
    rcases List.mem_pair.1 hu with rfl | rfl <;> cases List.mem_singleton.1 hd
    · simp only [List.mem_cons, List.not_mem_nil, or_false] at hm
      rcases hm with rfl | rfl | rfl <;> cases ht <;> simp [shopTypes]
    · cases List.mem_singleton.1 hm
      cases ht
      simp [shopTypes]
  | target hd hk =>
    obtain ⟨u, hu, hd⟩ := hd
    rcases List.mem_pair.1 hu with rfl | rfl <;> cases List.mem_singleton.1 hd <;> cases hk
  | element _ ih | alternative _ _ ih | property _ _ _ ih => simp [shopTypes] at ih
  | argument _ ht ih =>
    simp only [shopTypes, List.map_cons, List.map_nil, List.mem_cons, reduceCtorEq,
      TypeExpr.named.injEq, List.not_mem_nil, or_false, false_or] at ih
    rcases ih with ⟨-, rfl, -⟩ | ⟨-, rfl, -⟩ | ⟨-, rfl, -⟩ <;> cases ht

theorem originsKnown_shopCatalog : shopCatalog.OriginsKnown := by
  intro name args path h
  have hmem := mem_shopTypes h
  have hpath : path = ⟨"shop.ts"⟩ := by
    simp only [shopTypes, List.map_cons, List.map_nil, List.mem_cons, reduceCtorEq,
      TypeExpr.named.injEq, Option.some.injEq, List.not_mem_nil, or_false, false_or] at hmem
    rcases hmem with ⟨-, -, h⟩ | ⟨-, -, h⟩ | ⟨-, -, h⟩ <;> exact h
  exact ⟨shopUnit, by simp [shopCatalog], by rw [hpath]; rfl⟩

/-- The output for a shop stays as it is when another unit declares a person and a shop. -/
theorem build_add_namesakes : ∃ g findings,
    (⟨⟨""⟩, ⟨"out"⟩, .spaces 2⟩ : Layout).build shopCatalog shopUnit = .ok (g, findings) ∧
      (⟨⟨""⟩, ⟨"out"⟩, .spaces 2⟩ : Layout).build (shopCatalog.add namesakesUnit) shopUnit =
        .ok (g, findings) := by
  have built : ((⟨⟨""⟩, ⟨"out"⟩, .spaces 2⟩ : Layout).build shopCatalog shopUnit).isOk := by
    decide +kernel
  obtain ⟨⟨g, findings⟩, h⟩ := exists_ok_of_isOk built
  have hpaths : ∀ u ∈ shopCatalog.units, u.path.components ≠ namesakesUnit.path.components := by
    decide
  have hdate : ∀ d ∈ namesakesUnit.declarations, d.name ≠ Description.dateName := by decide
  have hu : shopUnit ∈ shopCatalog.units := by simp [shopCatalog]
  exact ⟨g, findings, h, build_add originsKnown_shopCatalog hpaths hdate hu h⟩

end InterfaceGuards
