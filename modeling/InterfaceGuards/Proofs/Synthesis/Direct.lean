/-
  Catalogs in which every synthesis ends.

  * `Description.bare`: how much of a description is object types that no name stands for.
  * `Catalog.Direct`: aliases of objects stand for the objects themselves, not for arrays or unions
    of them.
  * `ends_of_direct`: in such a catalog every expansion ends, as the names that are left to expand
    become fewer, or the object types that are left to enter become smaller.
-/
import InterfaceGuards.Proofs.Guard.Unit
import InterfaceGuards.Proofs.Synthesis.Ending

namespace InterfaceGuards

open Relation (ReflTransGen TransGen)
open Expansion (Calls Ends Loops Fits)

/-! ## Object types without a name -/

namespace TypeExpr

mutual

/-- The number of parts of the object types that stand in a type outside of members. -/
def bare : TypeExpr → Nat
  | .object members => sizeOfMembers members + 1
  | .array element => element.bare
  | .union alternatives => bareOfAll alternatives
  | _ => 0

/-- The same for several types. -/
def bareOfAll : List TypeExpr → Nat
  | [] => 0
  | t :: ts => t.bare + bareOfAll ts

end

mutual

theorem bare_le_size : ∀ t : TypeExpr, t.bare ≤ t.size
  | .object members => le_rfl
  | .array element => by
    have := bare_le_size element
    rw [bare, size]
    omega
  | .union alternatives => by
    have := bareOfAll_le_sizeOfAll alternatives
    rw [bare, size]
    omega
  | .keyword _ | .literal _ | .function | .param _ | .named .. | .unsupported _ => Nat.zero_le _

theorem bareOfAll_le_sizeOfAll : ∀ ts : List TypeExpr, bareOfAll ts ≤ sizeOfAll ts
  | [] => le_rfl
  | t :: ts => by
    have := bare_le_size t
    have := bareOfAll_le_sizeOfAll ts
    rw [bareOfAll, sizeOfAll]
    omega

end

theorem size_lt_sizeOfMembers {t : TypeExpr} : ∀ {ms : List Member} {m : Member}, m ∈ ms →
    m.type = some t → t.size < sizeOfMembers ms
  | n :: ms, m, hm, ht => by
    rw [sizeOfMembers]
    rcases List.mem_cons.1 hm with rfl | hm
    · obtain ⟨name, type, optional, kind⟩ := m
      cases ht
      rw [sizeOfMember, sizeOfOption]
      omega
    · have := size_lt_sizeOfMembers hm ht
      omega

end TypeExpr

namespace Description

mutual

/-- The number of parts of the object types that stand in a description without a name. -/
def bare : Description → Nat
  | .object members => TypeExpr.sizeOfMembers members + 1
  | .array element => element.bare
  | .union alternatives => bareOfAll alternatives
  | _ => 0

/-- The same for several descriptions. -/
def bareOfAll : List Description → Nat
  | [] => 0
  | d :: ds => d.bare + bareOfAll ds

end

theorem bareOfAll_append (ds es : List Description) :
    bareOfAll (ds ++ es) = bareOfAll ds + bareOfAll es := by
  induction ds with
  | nil => simp [bareOfAll]
  | cons d ds ih => rw [List.cons_append, bareOfAll, bareOfAll, ih, Nat.add_assoc]

theorem bareOfAll_alternatives (d : Description) : bareOfAll d.alternatives = d.bare := by
  cases d <;> simp [alternatives, bareOfAll, bare]

theorem bare_le_bareOfAll {d : Description} : ∀ {ds : List Description}, d ∈ ds →
    d.bare ≤ bareOfAll ds
  | e :: ds, h => by
    rw [bareOfAll]
    rcases List.mem_cons.1 h with rfl | h
    · omega
    · have := bare_le_bareOfAll h
      omega

end Description

namespace Catalog

variable {c : Catalog}

/-- Every alias stands for an object type itself, or for a type that has no object type in its
    arrays and unions. -/
def Direct (c : Catalog) : Prop :=
  ∀ {d t}, c.Declares d → d.kind = .alias t → (∃ ms, t = .object ms) ∨ t.bare = 0

section
variable {follow : String → List TypeExpr → Option Path → Except ResolveError Description}

mutual

theorem bare_describeWith
    (hf : ∀ {name args origin d}, follow name args origin = .ok d → d.bare = 0) :
    ∀ {t : TypeExpr} {d : Description}, describeWith follow t = .ok d → d.bare = t.bare
  | .array element, d, h => by
    obtain ⟨e, he, h⟩ := bind_eq_ok.1 h
    cases h
    rw [Description.bare, TypeExpr.bare, bare_describeWith hf he]
  | .union ts, d, h => by
    obtain ⟨ds, hds, h⟩ := bind_eq_ok.1 h
    cases h
    exact bare_describeAll hf hds
  | .named name args origin, d, h => hf h
  | .object _, d, h => by cases h; rfl
  | .keyword _, d, h | .literal _, d, h | .function, d, h | .param _, d, h
  | .unsupported _, d, h => by cases h; rfl

theorem bare_describeAll
    (hf : ∀ {name args origin d}, follow name args origin = .ok d → d.bare = 0) :
    ∀ {ts : List TypeExpr} {ds : List Description}, describeAll follow ts = .ok ds →
      Description.bareOfAll ds = TypeExpr.bareOfAll ts
  | [], ds, h => by cases h; rfl
  | t :: ts, ds, h => by
    obtain ⟨e, he, h⟩ := bind_eq_ok.1 h
    obtain ⟨es, hes, h⟩ := bind_eq_ok.1 h
    cases h
    rw [Description.bareOfAll_append, Description.bareOfAll_alternatives, TypeExpr.bareOfAll,
      bare_describeWith hf he, bare_describeAll hf hes]

end

end

/-- **Behind a name stands a name**, or nothing that has members. -/
theorem Direct.bare_follow (hc : c.Direct) {hops : Nat} {name : String} {args : List TypeExpr}
    {origin : Option Path} {d : Description} (h : c.follow hops name args origin = .ok d) :
    d.bare = 0 := by
  cases follow_eq_ok_iff.1 h with
  | date | generic | classLike => rfl
  | @aliased _ _ _ made hfound _ hkind hmade =>
    rcases hc (declares_of_lookup? hfound).1 hkind with ⟨ms, rfl⟩ | hbare
    · cases hmade
      rfl
    · rw [← bare_describeWith hc.bare_follow hmade] at hbare
      cases made with
      | object ms => cases hbare
      | primitive | literal | array | union | classLike | «alias» | reference | unsupported =>
        exact hbare

theorem Direct.bare_describe (hc : c.Direct) {t : TypeExpr} {d : Description}
    (h : c.describe t = .ok d) : d.bare = t.bare :=
  bare_describeWith hc.bare_follow h

end Catalog

/-! ## What becomes less -/

/-- How many of the declared names are not being expanded. -/
def Scope.fresh (s : Scope) : Nat := (s.catalog.names.toFinset \ s.expanding.toFinset).card

namespace Scope.Inside

variable {s s' : Scope}

theorem fresh_lt (h : s.Inside s') (hlength : s.expanding.length < s'.expanding.length) :
    s'.fresh < s.fresh := by
  obtain ⟨hcatalog, -, names, hnames, -, hfresh⟩ := h
  rw [hnames, List.length_append] at hlength
  have hpos : 0 < names.length := by omega
  obtain ⟨name, hname⟩ := List.exists_mem_of_length_pos hpos
  rw [fresh, fresh, hcatalog, hnames, List.toFinset_append]
  refine Finset.card_lt_card ⟨Finset.sdiff_subset_sdiff le_rfl Finset.subset_union_right, ?_⟩
  intro hsub
  have hmem : name ∈ s.catalog.names.toFinset \ s.expanding.toFinset := by simp [hfresh name hname]
  simpa [hname] using hsub hmem

end Scope.Inside

namespace Expansion

variable {p : Purpose} {x y : Expansion} {s : Scope} {ts : List TypeExpr}

/-- How much there is to be entered before a further name is expanded; a type comes before what it is
    described as. -/
def load (x : Expansion) : Nat :=
  match x.task with
  | .members ms => 2 * TypeExpr.sizeOfMembers ms
  | .type t => 2 * t.size + 1
  | .description d => 2 * d.bare

/-- **In a direct catalog a call is for less**: fewer names are left to expand, or there is less to
    be entered before the next one, or a description is looked into. -/
theorem Fits.call_lt (hc : s.catalog.Direct) (hts : s.catalog.Closed (· ∈ ts)) (hx : Fits s ts x)
    (h : Calls p x y) :
    y.scope.fresh < x.scope.fresh ∨
      y.scope.fresh = x.scope.fresh ∧
        (y.load < x.load ∨ y.load ≤ x.load ∧ y.rank < x.rank) := by
  have hin := hx.inside_of_run hts (.single h)
  cases h with
  | @member p s' ms m name t hm hp =>
    have := TypeExpr.size_lt_sizeOfMembers hm (m.type_of_property? hp)
    refine .inr ⟨rfl, .inl ?_⟩
    simp only [load]
    omega
  | @described p s' t d hd =>
    rw [hx.inside.catalog] at hd
    have hbare := hc.bare_describe hd
    have hsize := t.bare_le_size
    refine .inr ⟨rfl, .inl ?_⟩
    simp only [load]
    omega
  | classLike => exact .inl (hin.fresh_lt (Nat.lt_succ_self _))
  | named => exact .inl (hin.fresh_lt (Nat.lt_succ_self _))
  | object =>
    refine .inr ⟨rfl, .inl ?_⟩
    simp only [load, Description.bare]
    omega
  | element =>
    refine .inr ⟨rfl, .inr ⟨le_rfl, ?_⟩⟩
    simp only [rank, Description.size]
    omega
  | first =>
    refine .inr ⟨rfl, .inr ⟨?_, ?_⟩⟩
    · simp only [load, Description.bare, Description.bareOfAll]
      omega
    · simp only [rank, Description.size, Description.sizeOfAll]
      omega
  | alternative hd =>
    have hbare := Description.bare_le_bareOfAll hd
    have hsize := Description.size_le_sizeOfAll hd
    refine .inr ⟨rfl, .inr ⟨?_, ?_⟩⟩
    · simp only [load, Description.bare]
      omega
    · simp only [rank, Description.size]
      omega

/-- **In a direct catalog every expansion ends.** -/
theorem Fits.ends_of_direct (hc : s.catalog.Direct) (hts : s.catalog.Closed (· ∈ ts)) :
    ∀ {x : Expansion}, Fits s ts x → Ends p x
  | x, hx => .intro _ fun y hy => ends_of_direct hc hts (hx.step hts hy)
termination_by x => (x.scope.fresh, x.load, x.rank)
decreasing_by
  rcases hx.call_lt hc hts hy with h | ⟨h, hload | ⟨hload, hrank⟩⟩
  · exact .left _ _ h
  · rw [h]
    exact .right _ (.left _ _ hload)
  · rw [h]
    rcases hload.lt_or_eq with hload | hload
    · exact .right _ (.left _ _ hload)
    · rw [hload]
      exact .right _ (.right _ hrank)

end Expansion

end InterfaceGuards
