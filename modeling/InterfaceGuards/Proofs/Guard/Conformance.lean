/-
  What values a type admits.

  * `Catalog.Conforms`: a value is as a description says; `Catalog.HasMember`: an object has what a
    member asks for.  The two go into one another: descriptions list members, and the type of a
    member is described when somebody gets there.
  * `Catalog.HasMembers`: a value is an object that has all of several members.
  * `conforms_union_iff`, …: what conforming means, description by description.
-/
import InterfaceGuards.Proofs.Script.Value
import InterfaceGuards.Synthesis.Outcome

namespace InterfaceGuards

open Script (Value)

/-- The declared type of a member that is a property. -/
theorem MemberOf.type_of_property? {m : Member} {name : String} {t : TypeExpr}
    (h : m.property? = .ok (name, t)) : m.type = some t := by
  unfold MemberOf.property? at h
  split_ifs at h
  split at h
  · rename_i htype
    cases h; exact htype
  · cases h
  · cases h

namespace Catalog

mutual

/-- The object has what the member asks for.  A member that is no property asks for nothing, and
    an optional one is content with nothing. -/
inductive HasMember (c : Catalog) : Value → Member → Prop
  | malformed {v m e} : m.property? = .error e → HasMember c v m
  | absent {v m name t} : m.property? = .ok (name, t) → m.optional →
      v.property? name = some .undefined → HasMember c v m
  | present {v m name t w d} : m.property? = .ok (name, t) → v.property? name = some w →
      c.describe t = .ok d → Conforms c w d → HasMember c v m

/-- The value is as the description says. -/
inductive Conforms (c : Catalog) : Value → Description → Prop
  | null : Conforms c .null (.primitive .null)
  | primitive {v kind} : kind ≠ .null → v.typeOf = kind.name → Conforms c v (.primitive kind)
  | literal {v x} : v.same (.ofLiteral x) → Conforms c v (.literal x)
  | array {v es d} : v.elements? = some es → (∀ e ∈ es, Conforms c e d) → Conforms c v (.array d)
  | union {v d ds} : d ∈ ds → Conforms c v d → Conforms c v (.union ds)
  | date {v} : v.isDate → Conforms c v (.classLike Description.dateName [])
  | classLike {v name ms} : name ≠ Description.dateName → v.isObject →
      (∀ m ∈ ms, HasMember c v m) → Conforms c v (.classLike name ms)
  | object {v ms} : v.isObject → (∀ m ∈ ms, HasMember c v m) → Conforms c v (.object ms)
  | named {v name d} : Conforms c v d → Conforms c v (.alias name d)
  | reference {v name} : Conforms c v (.reference name)

end

/-- The value is an object that has what all of the members ask for. -/
def HasMembers (c : Catalog) (v : Value) (ms : List Member) : Prop :=
  v.isObject ∧ ∀ m ∈ ms, c.HasMember v m

variable {c : Catalog} {v w : Value} {d : Description} {m : Member} {ms : List Member}
  {name : String} {t : TypeExpr}

/-! ## Members -/

theorem hasMember_iff (hm : m.property? = .ok (name, t)) (hw : v.property? name = some w)
    (hd : c.describe t = .ok d) :
    c.HasMember v m ↔ (m.optional ∧ w = .undefined) ∨ c.Conforms w d := by
  constructor
  · intro h
    cases h with
    | malformed he => rw [hm] at he; cases he
    | absent h ho hv =>
      rw [hm] at h; cases h
      rw [hw] at hv; cases hv
      exact .inl ⟨ho, rfl⟩
    | present h hv hd' hc =>
      rw [hm] at h; cases h
      rw [hw] at hv; cases hv
      rw [hd] at hd'; cases hd'
      exact .inr hc
  · rintro (⟨ho, rfl⟩ | hc)
    · exact .absent hm ho hw
    · exact .present hm hw hd hc

/-! ## Descriptions -/

theorem conforms_null_iff : c.Conforms v (.primitive .null) ↔ v = .null := by
  constructor
  · intro h
    cases h with
    | null => rfl
    | primitive hk => exact absurd rfl hk
  · rintro rfl; exact .null

theorem conforms_primitive_iff {kind : Primitive} (hk : kind ≠ .null) :
    c.Conforms v (.primitive kind) ↔ v.typeOf = kind.name := by
  constructor
  · intro h
    cases h with
    | null => exact absurd rfl hk
    | primitive _ h => exact h
  · exact .primitive hk

theorem conforms_literal_iff {x : Literal} :
    c.Conforms v (.literal x) ↔ v.same (.ofLiteral x) = true := by
  constructor
  · intro h
    cases h with
    | literal h => exact h
  · exact .literal

theorem conforms_array_iff :
    c.Conforms v (.array d) ↔ ∃ es, v.elements? = some es ∧ ∀ e ∈ es, c.Conforms e d := by
  constructor
  · intro h
    cases h with
    | array hes h => exact ⟨_, hes, h⟩
  · rintro ⟨es, hes, h⟩; exact .array hes h

theorem conforms_union_iff {ds : List Description} :
    c.Conforms v (.union ds) ↔ ∃ d ∈ ds, c.Conforms v d := by
  constructor
  · intro h
    cases h with
    | union hd h => exact ⟨_, hd, h⟩
  · rintro ⟨d, hd, h⟩; exact .union hd h

theorem conforms_date_iff : c.Conforms v .date ↔ v.isDate = true := by
  constructor
  · intro h
    cases h with
    | date h => exact h
    | classLike hn => exact absurd rfl hn
  · exact .date

theorem conforms_classLike_iff (hn : name ≠ Description.dateName) :
    c.Conforms v (.classLike name ms) ↔ c.HasMembers v ms := by
  constructor
  · intro h
    cases h with
    | date => exact absurd rfl hn
    | classLike _ ho h => exact ⟨ho, h⟩
  · rintro ⟨ho, h⟩; exact .classLike hn ho h

theorem conforms_object_iff : c.Conforms v (.object ms) ↔ c.HasMembers v ms := by
  constructor
  · intro h
    cases h with
    | object ho h => exact ⟨ho, h⟩
  · rintro ⟨ho, h⟩; exact .object ho h

theorem conforms_alias_iff : c.Conforms v (.alias name d) ↔ c.Conforms v d := by
  constructor
  · intro h
    cases h with
    | named h => exact h
  · exact .named

end Catalog

end InterfaceGuards
