/-
  Types that occur in a catalog, and where descriptions come from.

  * `Catalog.Declares`: a declaration stands in some unit.
  * `Catalog.Occurs`: a type is written somewhere in a declaration, at whatever depth.
  * `Catalog.Arises`: a description is made of what the catalog declares.
  * `Catalog.Followed`: how a reference by name is described, case by case.
  * `Catalog.Consists`: a description is made of types with some property and of declarations;
    `Catalog.Closed` says that describing keeps to that property (`consists_of_describe`).
  * `arises_of_describe`: the description of a type that occurs arises from the catalog.
-/
import InterfaceGuards.Catalog.Describe
import InterfaceGuards.Proofs.Result

namespace InterfaceGuards

namespace Catalog

variable {c : Catalog}

/-- The declaration stands in some unit. -/
def Declares (c : Catalog) (d : Declaration) : Prop := ∃ u ∈ c.units, d ∈ u.declarations

/-- The declarations of all units, in order. -/
def declarations (c : Catalog) : List Declaration := c.units.flatMap (·.declarations)

theorem mem_declarations {d : Declaration} : d ∈ c.declarations ↔ c.Declares d := List.mem_flatMap

/-- The type is written in some declaration: in a member, as what an alias stands for, or inside
    another type. -/
inductive Occurs (c : Catalog) : TypeExpr → Prop
  | member {d m t} : c.Declares d → m ∈ d.members → m.type = some t → Occurs c t
  | target {d t} : c.Declares d → d.kind = .alias t → Occurs c t
  | element {t} : Occurs c (.array t) → Occurs c t
  | alternative {ts t} : Occurs c (.union ts) → t ∈ ts → Occurs c t
  | property {ms m t} : Occurs c (.object ms) → m ∈ ms → m.type = some t → Occurs c t
  | argument {name ts origin t} : Occurs c (.named name ts origin) → t ∈ ts → Occurs c t

/-- The description is made of what the catalog declares. -/
inductive Arises (c : Catalog) : Description → Prop
  | primitive {kind} : Arises c (.primitive kind)
  | literal {value} : Occurs c (.literal value) → Arises c (.literal value)
  | array {d} : Arises c d → Arises c (.array d)
  | object {ms} : Occurs c (.object ms) → Arises c (.object ms)
  | union {ds} : (∀ d ∈ ds, Arises c d) → Arises c (.union ds)
  | date : Arises c .date
  | classLike {d} : c.Declares d → Arises c (.classLike d.name d.members)
  | named {d t ms} : c.Declares d → d.kind = .alias t → Occurs c (.object ms) →
      Arises c (.alias d.name (.object ms))
  | reference {name} : Arises c (.reference name)
  | unsupported {kind} : Arises c (.unsupported kind)

theorem Declares.members_occur {c : Catalog} {d : Declaration} (h : c.Declares d) :
    ∀ m ∈ d.members, ∀ t, m.type = some t → c.Occurs t :=
  fun _ hm _ ht => .member h hm ht

/-- The property is one of all types written in declarations, and a type that has it hands it down
    to those within it. -/
structure Closed (c : Catalog) (P : TypeExpr → Prop) : Prop where
  member : ∀ {d m t}, c.Declares d → m ∈ d.members → m.type = some t → P t
  target : ∀ {d t}, c.Declares d → d.kind = .alias t → P t
  element : ∀ {t}, P (.array t) → P t
  alternative : ∀ {ts t}, P (.union ts) → t ∈ ts → P t
  property : ∀ {ms m t}, P (.object ms) → m ∈ ms → m.type = some t → P t

/-- The description is made of types that have the property, and of what the catalog declares. -/
inductive Consists (c : Catalog) (P : TypeExpr → Prop) : Description → Prop
  | primitive {kind} : Consists c P (.primitive kind)
  | literal {value} : P (.literal value) → Consists c P (.literal value)
  | array {d} : Consists c P d → Consists c P (.array d)
  | object {ms} : P (.object ms) → Consists c P (.object ms)
  | union {ds} : (∀ d ∈ ds, Consists c P d) → Consists c P (.union ds)
  | date : Consists c P .date
  | classLike {d} : c.Declares d → Consists c P (.classLike d.name d.members)
  | named {d t ms} : c.Declares d → d.kind = .alias t → P (.object ms) →
      Consists c P (.alias d.name (.object ms))
  | reference {name} : Consists c P (.reference name)
  | unsupported {kind} : Consists c P (.unsupported kind)

theorem closed_occurs : c.Closed c.Occurs :=
  ⟨.member, .target, .element, .alternative, .property⟩

theorem Consists.arises {d : Description} (h : c.Consists c.Occurs d) : c.Arises d := by
  induction h with
  | primitive => exact .primitive
  | literal ho => exact .literal ho
  | array _ ih => exact .array ih
  | object ho => exact .object ho
  | union _ ih => exact .union ih
  | date => exact .date
  | classLike hd => exact .classLike hd
  | named hd hk ho => exact .named hd hk ho
  | reference => exact .reference
  | unsupported => exact .unsupported

variable {P : TypeExpr → Prop}

theorem Consists.of_mem_alternatives {d e : Description} (h : c.Consists P d)
    (he : e ∈ d.alternatives) : c.Consists P e := by
  cases h with
  | union hs => exact hs e he
  | primitive | literal | array | object | date | classLike | named | reference | unsupported =>
    cases List.mem_singleton.1 he
    constructor <;> assumption

/-! ## Names -/

theorem mem_unitsAt {u : SourceUnit} {origin : Path} (h : u ∈ c.unitsAt origin) : u ∈ c.units :=
  (List.mem_filter.1 h).1

theorem declares_of_findSome? {us : List SourceUnit} (hus : ∀ u ∈ us, u ∈ c.units)
    {name : String} {d : Declaration} (h : us.findSome? (·.find? name) = some d) :
    c.Declares d ∧ d.name = name := by
  obtain ⟨u, hu, hd⟩ := List.exists_of_findSome?_eq_some h
  exact ⟨⟨u, hus u hu, List.mem_of_find?_eq_some hd⟩, by simpa using List.find?_some hd⟩

/-- **A name means a declaration of that name.** -/
theorem declares_of_lookup? {name : String} {origin : Option Path} {d : Declaration}
    (h : c.lookup? name origin = some d) : c.Declares d ∧ d.name = name := by
  unfold lookup? at h
  cases origin with
  | none => exact declares_of_findSome? (fun _ hu => hu) (by simpa using h)
  | some path =>
    cases hh : (c.unitsAt path).findSome? (·.find? name) with
    | none => exact declares_of_findSome? (fun _ hu => hu) (by simpa [hh] using h)
    | some e =>
      have : e = d := by simpa [hh] using h
      exact declares_of_findSome? (fun _ => mem_unitsAt) (this ▸ hh)

/-! ## References -/

/-- How a reference by name is described, when so many aliases may stand behind it. -/
inductive Followed (c : Catalog) (name : String) (origin : Option Path) :
    (hops : Nat) → (args : List TypeExpr) → Description → Prop
  /-- No declaration has the name of the built-in class. -/
  | date {hops} : c.lookup? name origin = none → name = Description.dateName →
      Followed c name origin hops [] .date
  /-- What has type parameters or is given arguments is not looked into. -/
  | generic {hops args e} : c.lookup? name origin = some e → args ≠ [] ∨ e.isGeneric →
      Followed c name origin hops args (.reference (TypeExpr.named name args origin).display)
  /-- An alias is described as what it stands for. -/
  | aliased {hops e target d} : c.lookup? name origin = some e → e.isGeneric = false →
      e.kind = .alias target → describeWith (c.follow hops) target = .ok d →
      Followed c name origin (hops + 1) [] (d.aliased e.name)
  /-- A class or interface is described with its members. -/
  | classLike {hops e} : c.lookup? name origin = some e → e.isGeneric = false →
      (∀ target, e.kind ≠ .alias target) →
      Followed c name origin hops [] (.classLike e.name e.members)

section
variable {hops : Nat} {name : String} {args : List TypeExpr} {origin : Option Path}
  {d : Description}

theorem Followed.follow_eq (h : c.Followed name origin hops args d) :
    c.follow hops name args origin = .ok d := by
  unfold follow
  cases h with
  | date hfound hname =>
    rw [hfound]
    exact if_pos ⟨hname, rfl⟩
  | generic hfound hgeneric =>
    rw [hfound]
    exact if_pos (by simpa using hgeneric)
  | aliased hfound hplain hkind hd =>
    rw [hfound]
    simp only [List.isEmpty_nil, hplain, hkind]
    exact map_eq_ok.2 ⟨_, hd, rfl⟩
  | @classLike hops e hfound hplain hkind =>
    rw [hfound]
    simp only [List.isEmpty_nil, hplain]
    cases hk : e.kind with
    | «alias» target => exact absurd hk (hkind target)
    | interfaceType | classType => rfl

theorem followed_of_follow (h : c.follow hops name args origin = .ok d) :
    c.Followed name origin hops args d := by
  unfold follow at h
  cases hfound : c.lookup? name origin with
  | none =>
    rw [hfound] at h
    dsimp only at h
    split_ifs at h with hdate
    obtain ⟨hname, hargs⟩ := hdate
    cases h
    rw [List.isEmpty_iff.1 hargs]
    exact .date hfound hname
  | some e =>
    rw [hfound] at h
    dsimp only at h
    split_ifs at h with hgeneric
    · cases h
      exact .generic hfound (by simpa using hgeneric)
    · obtain ⟨rfl, hplain⟩ : args = [] ∧ e.isGeneric = false := by simpa using hgeneric
      cases hkind : e.kind with
      | «alias» target =>
        rw [hkind] at h
        cases hops with
        | zero => cases h
        | succ hops =>
          obtain ⟨f, hf, rfl⟩ := map_eq_ok.1 h
          exact .aliased hfound hplain hkind hf
      | interfaceType | classType =>
        rw [hkind] at h
        cases h
        exact .classLike hfound hplain (by simp [hkind])

/-- **The descriptions of references**: nothing else is one. -/
theorem follow_eq_ok_iff :
    c.follow hops name args origin = .ok d ↔ c.Followed name origin hops args d :=
  ⟨followed_of_follow, Followed.follow_eq⟩

end

/-! ## Descriptions -/

section
variable {follow : String → List TypeExpr → Option Path → Except ResolveError Description}

mutual

theorem consists_of_describeWith (hP : c.Closed P)
    (hf : ∀ {name args origin d}, follow name args origin = .ok d → c.Consists P d) :
    ∀ {t : TypeExpr} {d : Description}, P t → describeWith follow t = .ok d → c.Consists P d
  | .keyword kind, d, _, h => by cases h; exact .primitive
  | .literal value, d, ht, h => by cases h; exact .literal ht
  | .array element, d, ht, h => by
    obtain ⟨e, he, h⟩ := bind_eq_ok.1 h
    cases h
    exact .array (consists_of_describeWith hP hf (hP.element ht) he)
  | .object ms, d, ht, h => by cases h; exact .object ht
  | .union ts, d, ht, h => by
    obtain ⟨ds, hds, h⟩ := bind_eq_ok.1 h
    cases h
    exact .union (consists_of_describeAll hP hf (fun t hm => hP.alternative ht hm) hds)
  | .function, d, _, h => by cases h; exact .primitive
  | .param name, d, _, h => by cases h; exact .reference
  | .named name args origin, d, _, h => hf h
  | .unsupported kind, d, _, h => by cases h; exact .unsupported

theorem consists_of_describeAll (hP : c.Closed P)
    (hf : ∀ {name args origin d}, follow name args origin = .ok d → c.Consists P d) :
    ∀ {ts : List TypeExpr} {ds : List Description}, (∀ t ∈ ts, P t) →
      describeAll follow ts = .ok ds → ∀ d ∈ ds, c.Consists P d
  | [], ds, _, h, d, hd => by cases h; cases hd
  | t :: ts, ds, ht, h, d, hd => by
    obtain ⟨e, he, h⟩ := bind_eq_ok.1 h
    obtain ⟨es, hes, h⟩ := bind_eq_ok.1 h
    cases h
    rcases List.mem_append.1 hd with hd | hd
    · exact (consists_of_describeWith hP hf (ht t (by simp)) he).of_mem_alternatives hd
    · exact consists_of_describeAll hP hf (fun t hm => ht t (by simp [hm])) hes d hd

end

end

theorem Consists.aliased {d : Declaration} {t : TypeExpr} (hd : c.Declares d)
    (hk : d.kind = .alias t) {e : Description} (he : c.Consists P e) :
    c.Consists P (e.aliased d.name) := by
  cases he with
  | object ho => exact .named hd hk ho
  | primitive | literal | array | union | date | classLike | named | reference | unsupported =>
    unfold Description.aliased
    constructor <;> assumption

theorem consists_of_follow (hP : c.Closed P) {hops : Nat} {name : String} {args : List TypeExpr}
    {origin : Option Path} {d : Description} (h : c.follow hops name args origin = .ok d) :
    c.Consists P d := by
  cases follow_eq_ok_iff.1 h with
  | date => exact .date
  | generic => exact .reference
  | aliased hfound _ hkind hf =>
    obtain ⟨he, -⟩ := declares_of_lookup? hfound
    exact (consists_of_describeWith hP (consists_of_follow hP) (hP.target he hkind) hf).aliased
      he hkind
  | classLike hfound => exact .classLike (declares_of_lookup? hfound).1

/-- **The description of a type with the property consists of types that have it.** -/
theorem consists_of_describe (hP : c.Closed P) {t : TypeExpr} {d : Description} (ht : P t)
    (h : c.describe t = .ok d) : c.Consists P d :=
  consists_of_describeWith hP (consists_of_follow hP) ht h

/-- **The description of a type that occurs arises from the catalog.** -/
theorem arises_of_describe {t : TypeExpr} {d : Description} (ht : c.Occurs t)
    (h : c.describe t = .ok d) : c.Arises d :=
  (consists_of_describe closed_occurs ht h).arises

end Catalog

end InterfaceGuards
