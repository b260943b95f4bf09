/-
  Catalogs in which more is declared.

  * `Catalog.add`: a catalog with one more unit at its end.
  * `Catalog.Extends`: names that are written in the smaller catalog and mean something there mean
    the same in the larger one.
  * `extends_add`: a unit at a path of its own that declares no `Date` makes such a catalog.
  * `describe_of_extends`: types of the smaller catalog keep their descriptions.

  A name that means nothing in the smaller catalog may mean something in the larger one; only the
  name of the built-in class may not.
-/
import InterfaceGuards.Proofs.Catalog.Occurrence
import InterfaceGuards.Synthesis.Scope

namespace InterfaceGuards

namespace Catalog

variable {c c' : Catalog} {v : SourceUnit}

/-- The catalog with one more unit at its end. -/
def add (c : Catalog) (v : SourceUnit) : Catalog := ⟨c.units ++ [v]⟩

/-- Every name that is said to be written in a unit is said to be written in one of the catalog. -/
def OriginsKnown (c : Catalog) : Prop :=
  ∀ name args path, c.Occurs (.named name args (some path)) →
    ∃ u ∈ c.units, u.path.components = path.components

/-- Names that are written in `c` and mean something there mean the same in `c'`; so does `Date` if
    it is the built-in class. -/
structure Extends (c' c : Catalog) : Prop where
  lookup : ∀ {name args origin d}, c.Occurs (.named name args origin) →
    c.lookup? name origin = some d → c'.lookup? name origin = some d
  date : ∀ {args origin}, c.Occurs (.named Description.dateName args origin) →
    c.lookup? Description.dateName origin = none →
    c'.lookup? Description.dateName origin = none
  size : c.size ≤ c'.size

/-! ## One more unit -/

theorem units_add : (c.add v).units = c.units ++ [v] := rfl

theorem size_le_size_add : c.size ≤ (c.add v).size := by
  have : ∀ (us : List SourceUnit) (n : Nat),
      us.foldr (fun u n => u.size + n) 0 ≤ us.foldr (fun u n => u.size + n) n := by
    intro us n
    induction us with
    | nil => exact Nat.zero_le n
    | cons u us ih =>
      simp only [List.foldr_cons]
      omega
  rw [size, size, units_add, List.foldr_append]
  exact this c.units _

/-- A path of the catalog leads to the same units when the new one is elsewhere. -/
theorem unitsAt_add {origin : Path} (h : ∃ u ∈ c.units, u.path.components = origin.components)
    (hv : ∀ u ∈ c.units, u.path.components ≠ v.path.components) :
    (c.add v).unitsAt origin = c.unitsAt origin := by
  obtain ⟨u, hu, hpath⟩ := h
  have hne : v.path.components ≠ origin.components := fun h => hv u hu (hpath.trans h.symm)
  simp [unitsAt, units_add, hne]

/-- What a name means is looked for in its own unit, then in all. -/
theorem lookup?_eq (c : Catalog) (name : String) (origin : Option Path) :
    c.lookup? name origin =
      (origin.bind fun path => (c.unitsAt path).findSome? (·.find? name)).or
        (c.units.findSome? (·.find? name)) := by
  cases origin <;> simp [lookup?]

theorem find?_eq_none_of_undeclared {name : String} (h : ∀ d ∈ v.declarations, d.name ≠ name) :
    v.find? name = none := by
  rw [SourceUnit.find?, List.find?_eq_none]
  intro d hd
  simpa using h d hd

/-- **A unit at a path of its own that declares no `Date` takes no name away.** -/
theorem extends_add (ho : c.OriginsKnown)
    (hv : ∀ u ∈ c.units, u.path.components ≠ v.path.components)
    (hdate : ∀ d ∈ v.declarations, d.name ≠ Description.dateName) : (c.add v).Extends c := by
  have hhome : ∀ {name args origin}, c.Occurs (.named name args origin) →
      (origin.bind fun path => ((c.add v).unitsAt path).findSome? (·.find? name)) =
        origin.bind fun path => (c.unitsAt path).findSome? (·.find? name) := by
    intro name args origin ht
    cases origin with
    | none => rfl
    | some path => simp [unitsAt_add (ho name args path ht) hv]
  refine ⟨fun {name args origin d} ht hd => ?_, fun {args origin} ht hd => ?_, size_le_size_add⟩
  · rw [lookup?_eq] at hd ⊢
    rw [hhome ht, units_add, List.findSome?_append]
    cases hfound : (origin.bind fun path => (c.unitsAt path).findSome? (·.find? name)) with
    | some e => simpa [hfound] using hd
    | none =>
      have hd : c.units.findSome? (·.find? name) = some d := by simpa [hfound] using hd
      simp [hd]
  · rw [lookup?_eq] at hd ⊢
    rw [hhome ht, units_add, List.findSome?_append]
    have hnone := find?_eq_none_of_undeclared hdate
    cases hfound : (origin.bind fun path =>
        (c.unitsAt path).findSome? (·.find? Description.dateName)) with
    | some e => simp [hfound] at hd
    | none =>
      have hd : c.units.findSome? (·.find? Description.dateName) = none := by
        simpa [hfound] using hd
      simp [hd, hnone]

/-! ## Descriptions -/

section
variable {follow follow' : String → List TypeExpr → Option Path → Except ResolveError Description}

mutual

/-- A type is described alike when the names in it are. -/
theorem describeWith_of_names (hf : ∀ {name args origin d}, c.Occurs (.named name args origin) →
      follow name args origin = .ok d → follow' name args origin = .ok d) :
    ∀ {t : TypeExpr} {d : Description}, c.Occurs t → describeWith follow t = .ok d →
      describeWith follow' t = .ok d
  | .array element, d, ht, h => by
    obtain ⟨e, he, h⟩ := bind_eq_ok.1 h
    exact bind_eq_ok.2 ⟨e, describeWith_of_names hf ht.element he, h⟩
  | .union ts, d, ht, h => by
    obtain ⟨ds, hds, h⟩ := bind_eq_ok.1 h
    exact bind_eq_ok.2 ⟨ds, describeAll_of_names hf (fun t hm => ht.alternative hm) hds, h⟩
  | .named name args origin, d, ht, h => hf ht h
  | .keyword _, d, _, h => h
  | .literal _, d, _, h => h
  | .object _, d, _, h => h
  | .function, d, _, h => h
  | .param _, d, _, h => h
  | .unsupported _, d, _, h => h

theorem describeAll_of_names (hf : ∀ {name args origin d}, c.Occurs (.named name args origin) →
      follow name args origin = .ok d → follow' name args origin = .ok d) :
    ∀ {ts : List TypeExpr} {ds : List Description}, (∀ t ∈ ts, c.Occurs t) →
      describeAll follow ts = .ok ds → describeAll follow' ts = .ok ds
  | [], ds, _, h => h
  | t :: ts, ds, ht, h => by
    obtain ⟨d, hd, h⟩ := bind_eq_ok.1 h
    obtain ⟨es, hes, h⟩ := bind_eq_ok.1 h
    refine bind_eq_ok.2 ⟨d, describeWith_of_names hf (ht t (by simp)) hd, bind_eq_ok.2 ⟨es, ?_, h⟩⟩
    exact describeAll_of_names hf (fun t hm => ht t (by simp [hm])) hes

end

end

theorem follow_of_extends (h : c'.Extends c) {hops : Nat} {name : String} {args : List TypeExpr}
    {origin : Option Path} {d : Description} (ht : c.Occurs (.named name args origin))
    (hd : c.follow hops name args origin = .ok d) : c'.follow hops name args origin = .ok d := by
  rw [follow_eq_ok_iff]
  cases follow_eq_ok_iff.1 hd with
  | date hfound hname =>
    subst hname
    exact .date (h.date ht hfound) rfl
  | generic hfound hgeneric => exact .generic (h.lookup ht hfound) hgeneric
  | aliased hfound hplain hkind hf =>
    -- What an alias stands for is written in the catalog as well.
    have htarget := Occurs.target (declares_of_lookup? hfound).1 hkind
    exact .aliased (h.lookup ht hfound) hplain hkind
      (describeWith_of_names (follow_of_extends h) htarget hf)
  | classLike hfound hplain hkind => exact .classLike (h.lookup ht hfound) hplain hkind

/-- **Types of the smaller catalog keep their descriptions.** -/
theorem describe_of_extends (h : c'.Extends c) {t : TypeExpr} {d : Description}
    (ht : c.Occurs t) (hd : c.describe t = .ok d) : c'.describe t = .ok d :=
  describeWith_of_names (fun hname hfollow => follow_of_extends h hname hfollow) ht hd

/-- An expansion may go as deep in the larger catalog as in the smaller one. -/
theorem expansionBound_le (h : c'.Extends c) (size : Nat) :
    c.expansionBound size ≤ c'.expansionBound size := by
  have := h.size
  exact Nat.mul_le_mul (by omega) (by omega)

end Catalog

end InterfaceGuards
