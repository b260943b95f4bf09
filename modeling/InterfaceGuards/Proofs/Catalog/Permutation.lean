/-
  Catalogs whose units declare the same in another order.

  * `SourceUnit.Reordered`, `Catalog.Reordered`: the same declarations in another order.
  * `lookup?_of_reordered`: a name means what it meant, if no unit declares a name twice.
  * `describe_of_reordered`, `expansionBound_of_reordered`: so types are described as before, and
    are expanded as deep.
-/
import InterfaceGuards.Proofs.Catalog.Extension
import Mathlib.Data.List.Nodup
import Mathlib.Data.List.Perm.Basic

namespace InterfaceGuards

/-- The second unit is at the same place and declares the same, perhaps in another order. -/
structure SourceUnit.Reordered (u u' : SourceUnit) : Prop where
  path : u'.path = u.path
  declarations : u'.declarations.Perm u.declarations

/-- The second catalog has the same units, perhaps with their declarations in another order. -/
def Catalog.Reordered (c c' : Catalog) : Prop :=
  List.Forall₂ SourceUnit.Reordered c.units c'.units

namespace SourceUnit

variable {u u' : SourceUnit}

/-! ## Units -/

theorem Reordered.refl (u : SourceUnit) : u.Reordered u := ⟨rfl, .refl _⟩

theorem Reordered.interfaces (h : u.Reordered u') : u'.interfaces.Perm u.interfaces :=
  h.declarations.filter _

theorem Reordered.nodup (h : u.Reordered u') (hn : (u.declarations.map (·.name)).Nodup) :
    (u'.declarations.map (·.name)).Nodup :=
  (h.declarations.map _).nodup_iff.2 hn

/-- A unit that declares no name twice declares under a name what has that name. -/
theorem find?_eq_some_iff (hn : (u.declarations.map (·.name)).Nodup) {name : String}
    {d : Declaration} : u.find? name = some d ↔ d ∈ u.declarations ∧ d.name = name := by
  constructor
  · intro h
    exact ⟨List.mem_of_find?_eq_some h, by simpa using List.find?_some h⟩
  · rintro ⟨hd, rfl⟩
    cases hfound : u.find? d.name with
    | none => simpa using List.find?_eq_none.1 hfound d hd
    | some e =>
      have he : e.name = d.name := by simpa using List.find?_some hfound
      rw [List.inj_on_of_nodup_map hn (List.mem_of_find?_eq_some hfound) hd he]

/-- **A name that is declared once** is found in whatever order. -/
theorem Reordered.find? (h : u.Reordered u') (hn : (u.declarations.map (·.name)).Nodup)
    (name : String) : u'.find? name = u.find? name := by
  ext d
  rw [find?_eq_some_iff (h.nodup hn), find?_eq_some_iff hn, h.declarations.mem_iff]

theorem Reordered.size (h : u.Reordered u') : u'.size = u.size := by
  have : LeftCommutative fun (d : Declaration) (n : Nat) => d.size + n :=
    ⟨fun _ _ _ => Nat.add_left_comm ..⟩
  exact h.declarations.foldr_eq 0

end SourceUnit

namespace Catalog

variable {c c' : Catalog}

/-! ## Catalogs -/

/-- No unit declares a name twice. -/
def Distinct (c : Catalog) : Prop :=
  ∀ u ∈ c.units, (u.declarations.map (·.name)).Nodup

/-- One unit with its declarations in another order, among others that stay as they are. -/
theorem reordered_of_unit {before after : List SourceUnit} {u u' : SourceUnit}
    (h : u.Reordered u') : (⟨before ++ u :: after⟩ : Catalog).Reordered ⟨before ++ u' :: after⟩ :=
  List.rel_append (List.forall₂_same.2 fun _ _ => .refl _)
    (.cons h (List.forall₂_same.2 fun _ _ => .refl _))

/-- In units with their declarations in another order the same is found. -/
theorem findSome?_of_reordered {us us' : List SourceUnit}
    (h : List.Forall₂ SourceUnit.Reordered us us')
    (hn : ∀ u ∈ us, (u.declarations.map (·.name)).Nodup) (name : String) :
    us'.findSome? (·.find? name) = us.findSome? (·.find? name) := by
  induction h with
  | nil => rfl
  | cons hu _ ih =>
    obtain ⟨hfirst, hrest⟩ := List.forall_mem_cons.1 hn
    rw [List.findSome?_cons, List.findSome?_cons, hu.find? hfirst, ih hrest]

/-- **A name means the same** in whatever order the units declare it. -/
theorem lookup?_of_reordered (h : c.Reordered c') (hn : c.Distinct) : c'.lookup? = c.lookup? := by
  funext name origin
  have home : ∀ path : Path, (c'.unitsAt path).findSome? (·.find? name) =
      (c.unitsAt path).findSome? (·.find? name) := by
    intro path
    refine findSome?_of_reordered ?_ (fun u hu => hn u (List.mem_of_mem_filter hu)) name
    exact List.rel_filter (fun u u' hu => by simp [hu.path]) h
  rw [lookup?_eq, lookup?_eq, findSome?_of_reordered h hn]
  simp only [home]

/-- Types are described by what names mean. -/
theorem describe_of_lookup? (h : c'.lookup? = c.lookup?) : c'.describe = c.describe := by
  have hfollow : ∀ hops, c'.follow hops = c.follow hops := by
    intro hops
    induction hops with
    | zero =>
      funext name args origin
      rw [follow, follow, h]
      cases c.lookup? name origin with
      | none => rfl
      | some d =>
        obtain ⟨_, _ | _ | target, _, _⟩ := d <;> rfl
    | succ hops ih =>
      funext name args origin
      rw [follow, follow, h]
      cases c.lookup? name origin with
      | none => rfl
      | some d =>
        obtain ⟨_, _ | _ | target, _, _⟩ := d
        · rfl
        · rfl
        · simp only [ih]
  funext type
  rw [describe, describe]
  have : c'.describeReference = c.describeReference := hfollow aliasHops
  rw [this]

theorem describe_of_reordered (h : c.Reordered c') (hn : c.Distinct) : c'.describe = c.describe :=
  describe_of_lookup? (lookup?_of_reordered h hn)

theorem expansionBound_of_reordered (h : c.Reordered c') :
    c'.expansionBound = c.expansionBound := by
  have hsize : c'.size = c.size := by
    have sizes : ∀ {us us' : List SourceUnit}, List.Forall₂ SourceUnit.Reordered us us' →
        us'.foldr (fun u n => u.size + n) 0 = us.foldr (fun u n => u.size + n) 0 := by
      intro us us' h
      induction h with
      | nil => rfl
      | cons hu _ ih => rw [List.foldr_cons, List.foldr_cons, hu.size, ih]
    exact sizes h
  funext n
  rw [expansionBound, expansionBound, hsize]

end Catalog

end InterfaceGuards
