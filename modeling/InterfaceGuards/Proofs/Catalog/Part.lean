/-
  The types that stand in a catalog, listed.

  * `TypeExpr.parts`: a type with all types within it, no more of them than the type has parts.
  * `Catalog.parts`: the types that stand in declarations; whatever occurs is listed
    (`Occurs.mem_parts`).
  * `Catalog.names`: the names that are declared.
  * `length_parts_le`, `length_names_le`: no more of either than the size of the catalog.
-/
import InterfaceGuards.Proofs.Catalog.Occurrence
import InterfaceGuards.Synthesis.Scope

namespace InterfaceGuards

namespace TypeExpr

mutual

/-- A type and the types within it. -/
def parts : TypeExpr → List TypeExpr
  | .array element => .array element :: element.parts
  | .object members => .object members :: partsOfMembers members
  | .union alternatives => .union alternatives :: partsOfAll alternatives
  | .named name args origin => .named name args origin :: partsOfAll args
  | t => [t]

/-- Several types and the types within them. -/
def partsOfAll : List TypeExpr → List TypeExpr
  | [] => []
  | t :: ts => t.parts ++ partsOfAll ts

/-- The types within several members. -/
def partsOfMembers : List (MemberOf TypeExpr) → List TypeExpr
  | [] => []
  | m :: ms => partsOfMember m ++ partsOfMembers ms

/-- The types within a member. -/
def partsOfMember : MemberOf TypeExpr → List TypeExpr
  | ⟨_, type, _, _⟩ => partsOfOption type

/-- The types within a type that may be missing. -/
def partsOfOption : Option TypeExpr → List TypeExpr
  | none => []
  | some t => t.parts

end

theorem mem_parts_self (t : TypeExpr) : t ∈ t.parts := by
  cases t <;> simp [parts]

theorem mem_partsOfAll {t u : TypeExpr} : ∀ {ts : List TypeExpr}, u ∈ ts → t ∈ u.parts →
    t ∈ partsOfAll ts
  | v :: ts, hu, ht => by
    rw [partsOfAll, List.mem_append]
    rcases List.mem_cons.1 hu with rfl | hu
    · exact .inl ht
    · exact .inr (mem_partsOfAll hu ht)

theorem mem_partsOfMembers {t u : TypeExpr} : ∀ {ms : List Member} {m : Member}, m ∈ ms →
    m.type = some u → t ∈ u.parts → t ∈ partsOfMembers ms
  | n :: ms, m, hm, hu, ht => by
    rw [partsOfMembers, List.mem_append]
    rcases List.mem_cons.1 hm with rfl | hm
    · obtain ⟨name, type, optional, kind⟩ := m
      cases hu
      exact .inl (by simpa [partsOfMember, partsOfOption] using ht)
    · exact .inr (mem_partsOfMembers hm hu ht)

/-! ## Parts of parts -/

mutual

theorem parts_subset : ∀ {u t : TypeExpr}, t ∈ u.parts → t.parts ⊆ u.parts
  | .array element, t, h => by
    rw [parts] at h
    rcases List.mem_cons.1 h with rfl | h
    · exact fun _ hx => hx
    · rw [parts]
      exact List.subset_cons_of_subset _ (parts_subset h)
  | .object members, t, h => by
    rw [parts] at h
    rcases List.mem_cons.1 h with rfl | h
    · exact fun _ hx => hx
    · rw [parts]
      exact List.subset_cons_of_subset _ (partsOfMembers_subset h)
  | .union alternatives, t, h => by
    rw [parts] at h
    rcases List.mem_cons.1 h with rfl | h
    · exact fun _ hx => hx
    · rw [parts]
      exact List.subset_cons_of_subset _ (partsOfAll_subset h)
  | .named name args origin, t, h => by
    rw [parts] at h
    rcases List.mem_cons.1 h with rfl | h
    · exact fun _ hx => hx
    · rw [parts]
      exact List.subset_cons_of_subset _ (partsOfAll_subset h)
  | .keyword _, t, h | .literal _, t, h | .function, t, h | .param _, t, h
  | .unsupported _, t, h => by
    obtain rfl := List.mem_singleton.1 (by simpa [parts] using h)
    exact fun _ hx => hx

theorem partsOfAll_subset : ∀ {ts : List TypeExpr} {t : TypeExpr}, t ∈ partsOfAll ts →
    t.parts ⊆ partsOfAll ts
  | [], _, h => by simp [partsOfAll] at h
  | u :: ts, t, h => by
    rw [partsOfAll] at h ⊢
    rcases List.mem_append.1 h with h | h
    · exact List.subset_append_of_subset_left _ (parts_subset h)
    · exact List.subset_append_of_subset_right _ (partsOfAll_subset h)

theorem partsOfMembers_subset : ∀ {ms : List (MemberOf TypeExpr)} {t : TypeExpr},
    t ∈ partsOfMembers ms → t.parts ⊆ partsOfMembers ms
  | [], _, h => by simp [partsOfMembers] at h
  | m :: ms, t, h => by
    rw [partsOfMembers] at h ⊢
    rcases List.mem_append.1 h with h | h
    · exact List.subset_append_of_subset_left _ (partsOfMember_subset h)
    · exact List.subset_append_of_subset_right _ (partsOfMembers_subset h)

theorem partsOfMember_subset : ∀ {m : MemberOf TypeExpr} {t : TypeExpr}, t ∈ partsOfMember m →
    t.parts ⊆ partsOfMember m
  | ⟨_, type, _, _⟩, t, h => by
    rw [partsOfMember] at h ⊢
    exact partsOfOption_subset h

theorem partsOfOption_subset : ∀ {o : Option TypeExpr} {t : TypeExpr}, t ∈ partsOfOption o →
    t.parts ⊆ partsOfOption o
  | none, _, h => by simp [partsOfOption] at h
  | some u, t, h => by
    rw [partsOfOption] at h ⊢
    exact parts_subset h

end

/-! ## How many -/

mutual

theorem length_parts_le : ∀ t : TypeExpr, t.parts.length ≤ t.size
  | .array element => by
    have := length_parts_le element
    simp only [parts, size, List.length_cons]
    omega
  | .object members => by
    have := length_partsOfMembers_le members
    simp only [parts, size, List.length_cons]
    omega
  | .union alternatives => by
    have := length_partsOfAll_le alternatives
    simp only [parts, size, List.length_cons]
    omega
  | .named _ args _ => by
    have := length_partsOfAll_le args
    simp only [parts, size, List.length_cons]
    omega
  | .keyword _ | .literal _ | .function | .param _ | .unsupported _ => by simp [parts, size]

theorem length_partsOfAll_le : ∀ ts : List TypeExpr, (partsOfAll ts).length ≤ sizeOfAll ts
  | [] => by simp [partsOfAll]
  | t :: ts => by
    have := length_parts_le t
    have := length_partsOfAll_le ts
    simp only [partsOfAll, sizeOfAll, List.length_append]
    omega

theorem length_partsOfMembers_le : ∀ ms : List (MemberOf TypeExpr),
    (partsOfMembers ms).length ≤ sizeOfMembers ms
  | [] => by simp [partsOfMembers]
  | m :: ms => by
    have := length_partsOfMember_le m
    have := length_partsOfMembers_le ms
    simp only [partsOfMembers, sizeOfMembers, List.length_append]
    omega

theorem length_partsOfMember_le : ∀ m : MemberOf TypeExpr, (partsOfMember m).length ≤ sizeOfMember m
  | ⟨_, type, _, _⟩ => by
    have := length_partsOfOption_le type
    simp only [partsOfMember, sizeOfMember]
    omega

theorem length_partsOfOption_le : ∀ o : Option TypeExpr, (partsOfOption o).length ≤ sizeOfOption o
  | none => by simp [partsOfOption]
  | some t => by
    simp only [partsOfOption, sizeOfOption]
    exact length_parts_le t

end

end TypeExpr

/-! ## Catalogs -/

/-- The types in a declaration. -/
def Declaration.parts (d : Declaration) : List TypeExpr :=
  TypeExpr.partsOfMembers d.members ++
    match d.kind with
    | .alias target => target.parts
    | _ => []

theorem Declaration.length_parts_lt (d : Declaration) : d.parts.length < d.size := by
  have hmembers := TypeExpr.length_partsOfMembers_le d.members
  unfold parts size
  match d.kind with
  | .alias target =>
    have := target.length_parts_le
    simp only [List.length_append]
    omega
  | .interfaceType | .classType =>
    simp only [List.length_append, List.length_nil]
    omega

theorem Declaration.parts_subset {d : Declaration} {t : TypeExpr} (h : t ∈ d.parts) :
    t.parts ⊆ d.parts := by
  unfold parts at h ⊢
  rcases List.mem_append.1 h with h | h
  · exact List.subset_append_of_subset_left _ (TypeExpr.partsOfMembers_subset h)
  · refine List.subset_append_of_subset_right _ ?_
    match hk : d.kind with
    | .alias target =>
      rw [hk] at h
      exact TypeExpr.parts_subset h
    | .interfaceType | .classType =>
      rw [hk] at h
      cases h

namespace Catalog

variable {c : Catalog}

/-- The names that are declared. -/
def names (c : Catalog) : List String := c.declarations.map (·.name)

/-- The types that stand in declarations. -/
def parts (c : Catalog) : List TypeExpr := c.declarations.flatMap Declaration.parts

theorem Declares.mem_names {d : Declaration} (h : c.Declares d) : d.name ∈ c.names :=
  List.mem_map_of_mem (mem_declarations.2 h)

theorem Declares.mem_parts {d : Declaration} {t : TypeExpr} (h : c.Declares d) (ht : t ∈ d.parts) :
    t ∈ c.parts :=
  List.mem_flatMap.2 ⟨d, mem_declarations.2 h, ht⟩

theorem mem_parts_of_mem {t u : TypeExpr} (hu : u ∈ c.parts) (ht : t ∈ u.parts) : t ∈ c.parts := by
  obtain ⟨d, hd, hu⟩ := List.mem_flatMap.1 hu
  exact List.mem_flatMap.2 ⟨d, hd, Declaration.parts_subset hu ht⟩

/-- Being in a list that has the types of all declarations, and with a type those within it, is
    handed down by declarations and types. -/
theorem closed_of_parts {ts : List TypeExpr} (hc : c.parts ⊆ ts)
    (hts : ∀ {t u}, u ∈ ts → t ∈ u.parts → t ∈ ts) : c.Closed (· ∈ ts) where
  member hd hm ht := hc (hd.mem_parts
    (List.mem_append_left _ (TypeExpr.mem_partsOfMembers hm ht (TypeExpr.mem_parts_self _))))
  target hd hk := by
    refine hc (hd.mem_parts (List.mem_append_right _ ?_))
    rw [hk]
    exact TypeExpr.mem_parts_self _
  element h := hts h (by simp [TypeExpr.parts, TypeExpr.mem_parts_self])
  alternative h ht := hts h (by
    simp [TypeExpr.parts, TypeExpr.mem_partsOfAll ht (TypeExpr.mem_parts_self _)])
  property h hm ht := hts h (by
    simp [TypeExpr.parts, TypeExpr.mem_partsOfMembers hm ht (TypeExpr.mem_parts_self _)])

theorem closed_parts (c : Catalog) : c.Closed (· ∈ c.parts) :=
  closed_of_parts (List.Subset.refl _) mem_parts_of_mem

/-- **Whatever occurs is listed.** -/
theorem Occurs.mem_parts {t : TypeExpr} (h : c.Occurs t) : t ∈ c.parts := by
  induction h with
  | member hd hm ht => exact c.closed_parts.member hd hm ht
  | target hd hk => exact c.closed_parts.target hd hk
  | element _ ih => exact c.closed_parts.element ih
  | alternative _ ht ih => exact c.closed_parts.alternative ih ht
  | property _ hm ht ih => exact c.closed_parts.property ih hm ht
  | argument _ ht ih =>
    exact mem_parts_of_mem ih (by
      simp [TypeExpr.parts, TypeExpr.mem_partsOfAll ht (TypeExpr.mem_parts_self _)])

/-! ## How many -/

theorem size_eq_foldr (c : Catalog) : c.size = c.declarations.foldr (fun d n => d.size + n) 0 := by
  have from_unit (ds : List Declaration) (n : Nat) :
      ds.foldr (fun d n => d.size + n) 0 + n = ds.foldr (fun d n => d.size + n) n := by
    induction ds with
    | nil => simp
    | cons d ds ih => rw [List.foldr_cons, List.foldr_cons, ← ih, Nat.add_assoc]
  unfold size declarations
  induction c.units with
  | nil => rfl
  | cons u us ih =>
    rw [List.foldr_cons, ih, List.flatMap_cons, List.foldr_append]
    exact from_unit u.declarations _

theorem length_names_le (c : Catalog) : c.names.length ≤ c.size := by
  rw [size_eq_foldr, names, List.length_map]
  induction c.declarations with
  | nil => simp
  | cons d ds ih =>
    have := d.length_parts_lt
    simp only [List.foldr_cons, List.length_cons]
    omega

theorem length_parts_le (c : Catalog) : c.parts.length ≤ c.size := by
  rw [size_eq_foldr, parts]
  induction c.declarations with
  | nil => simp
  | cons d ds ih =>
    have := d.length_parts_lt
    simp only [List.flatMap_cons, List.length_append, List.foldr_cons]
    omega

end Catalog

end InterfaceGuards
