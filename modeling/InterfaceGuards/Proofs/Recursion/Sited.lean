/-
  Descriptions in which one can tell where each declaration stands.

  * `Site`: where a declaration stands: the place of its unit among all units, and its name.
  * `Catalog.locate?`: the declaration that a name means, with its site.
  * `Sited`: a description in which classes and named objects keep their sites.
  * `Catalog.sited`: the sited description of a type.
  * `erase_sited`: without the sites, it is the description of the type.
  * `atSites_of_sited`: all sites in it are sites of the declarations they are said to be.
-/
import InterfaceGuards.Proofs.Catalog.Occurrence

namespace InterfaceGuards

/-- Where a declaration stands: the place of its unit among all units, and its name, which no other
    declaration of the unit has. -/
structure Site where
  unit : Nat
  name : String
deriving DecidableEq, Repr

/-! ## Names -/

namespace Catalog

variable {c : Catalog}

/-- The declaration at a site. -/
def at? (c : Catalog) (site : Site) : Option Declaration :=
  c.units[site.unit]?.bind (·.find? site.name)

/-- The declaration of a name in a unit at a place, with its site. -/
def standing? (name : String) (u : SourceUnit × Nat) : Option (Site × Declaration) :=
  (u.1.find? name).map fun d => (⟨u.2, name⟩, d)

/-- The declaration that a name means, with its site: one of the unit it was written in, else the
    first of all. -/
def locate? (c : Catalog) (name : String) (origin : Option Path) : Option (Site × Declaration) :=
  let home :=
    match origin with
    | some path =>
      (c.units.zipIdx.filter fun u => decide (u.1.path.components = path.components)).findSome?
        (standing? name)
    | none => none
  home <|> c.units.zipIdx.findSome? (standing? name)

theorem findSome?_standing? {name : String} {p : SourceUnit → Bool} : ∀ {us : List SourceUnit}
    {k : Nat}, (((us.zipIdx k).filter fun u => p u.1).findSome? (standing? name)).map (·.2) =
      (us.filter p).findSome? (·.find? name)
  | [], k => rfl
  | u :: us, k => by
    rw [List.zipIdx_cons, List.filter_cons, List.filter_cons]
    split_ifs
    · rw [List.findSome?_cons, List.findSome?_cons]
      cases hd : u.find? name with
      | none => simpa [standing?, hd] using findSome?_standing?
      | some d => simp [standing?, hd]
    · exact findSome?_standing?

/-- **Without its site, it is the declaration that the name means.** -/
theorem locate?_declaration (name : String) (origin : Option Path) :
    (c.locate? name origin).map (·.2) = c.lookup? name origin := by
  have all : (c.units.zipIdx.findSome? (standing? name)).map (·.2) =
      c.units.findSome? (·.find? name) := by
    have every {α : Type} (xs : List α) : (xs.filter fun _ => true) = xs :=
      List.filter_eq_self.2 fun _ _ => rfl
    have h := @findSome?_standing? name (fun _ => true) c.units 0
    rwa [every, every] at h
  unfold locate? lookup? unitsAt
  cases origin with
  | none => simpa using all
  | some path =>
    simp only [← findSome?_standing? (k := 0)]
    cases (c.units.zipIdx.filter fun u =>
      decide (u.1.path.components = path.components)).findSome? (standing? name) with
    | none => simpa using all
    | some x => rfl

theorem at?_of_standing? {us : List (SourceUnit × Nat)} (hus : us ⊆ c.units.zipIdx) {name : String}
    {x : Site × Declaration} (h : us.findSome? (standing? name) = some x) :
    c.at? x.1 = some x.2 ∧ x.2.name = x.1.name := by
  obtain ⟨⟨u, k⟩, hu, hx⟩ := List.exists_of_findSome?_eq_some h
  obtain ⟨d, hd, rfl⟩ := Option.map_eq_some_iff.1 hx
  have hk : c.units[k]? = some u := List.mem_zipIdx_iff_getElem?.1 (hus hu)
  exact ⟨by simp [at?, hk, hd], by simpa using List.find?_some hd⟩

/-- The declaration that a name means stands at its site, by the name of the site. -/
theorem at?_of_locate? {name : String} {origin : Option Path} {x : Site × Declaration}
    (h : c.locate? name origin = some x) : c.at? x.1 = some x.2 ∧ x.2.name = x.1.name := by
  unfold locate? at h
  cases origin with
  | none => exact at?_of_standing? (fun _ hu => hu) (by simpa using h)
  | some path =>
    cases hh : (c.units.zipIdx.filter fun u =>
      decide (u.1.path.components = path.components)).findSome? (standing? name) with
    | none => exact at?_of_standing? (fun _ hu => hu) (by simpa [hh] using h)
    | some y =>
      obtain rfl : y = x := by simpa [hh] using h
      exact at?_of_standing? List.filter_sublist.subset hh

end Catalog

/-! ## Descriptions -/

/-- A description in which a class, an interface or the alias of an object is known by its site. -/
inductive Sited where
  | primitive (kind : Primitive)
  | literal (value : Literal)
  | array (element : Sited)
  | object (members : List Member)
  | union (alternatives : List Sited)
  | date
  | classLike (site : Site) (members : List Member)
  | named (site : Site) (members : List Member)
  | reference (name : String)
  | unsupported (kind : String)

namespace Sited

mutual

/-- The description with names in place of sites. -/
def erase : Sited → Description
  | .primitive kind => .primitive kind
  | .literal value => .literal value
  | .array element => .array element.erase
  | .object ms => .object ms
  | .union ds => .union (eraseAll ds)
  | .date => .date
  | .classLike site ms => .classLike site.name ms
  | .named site ms => .alias site.name (.object ms)
  | .reference name => .reference name
  | .unsupported kind => .unsupported kind

/-- Several descriptions with names in place of sites. -/
def eraseAll : List Sited → List Description
  | [] => []
  | d :: ds => d.erase :: eraseAll ds

end

/-- The alternatives of a description: those of a union, or the description alone. -/
def alternatives : Sited → List Sited
  | .union ds => ds
  | d => [d]

/-- The description of an alias at a site: an object keeps the site, anything else stands for
    itself. -/
def aliased (site : Site) : Sited → Sited
  | .object ms => .named site ms
  | d => d

theorem eraseAll_append : ∀ ds es : List Sited, eraseAll (ds ++ es) = eraseAll ds ++ eraseAll es
  | [], es => rfl
  | d :: ds, es => by rw [List.cons_append, eraseAll, eraseAll, eraseAll_append ds es]; rfl

theorem eraseAll_alternatives (d : Sited) : eraseAll d.alternatives = d.erase.alternatives := by
  cases d <;> rfl

theorem erase_aliased (site : Site) (d : Sited) :
    (d.aliased site).erase = d.erase.aliased site.name := by
  cases d <;> rfl

end Sited

namespace Catalog

section
variable (follow : String → List TypeExpr → Option Path → Except ResolveError Sited)

mutual

/-- The sited description of a type, `follow` locating references by name. -/
def sitedWith : TypeExpr → Except ResolveError Sited
  | .keyword kind => .ok (.primitive kind)
  | .literal value => .ok (.literal value)
  | .array element => do
    let d ← sitedWith element
    .ok (.array d)
  | .object members => .ok (.object members)
  | .union types => do
    let ds ← sitedAll types
    .ok (.union ds)
  | .function => .ok (.primitive .function)
  | .param name => .ok (.reference name)
  | .named name args origin => follow name args origin
  | .unsupported kind => .ok (.unsupported kind)

/-- The alternatives of the sited descriptions of several types, in order. -/
def sitedAll : List TypeExpr → Except ResolveError (List Sited)
  | [] => .ok []
  | t :: ts => do
    let d ← sitedWith t
    let ds ← sitedAll ts
    .ok (d.alternatives ++ ds)

end

end

/-- The sited description of a reference by name, behind which at most `hops` aliases may
    stand. -/
def sitedFollow (c : Catalog) (hops : Nat) (name : String) (args : List TypeExpr)
    (origin : Option Path) : Except ResolveError Sited :=
  match c.locate? name origin with
  | none =>
    if name = Description.dateName ∧ args.isEmpty then .ok .date else .error (.unknownType name)
  | some (site, d) =>
    if !args.isEmpty || d.isGeneric then .ok (.reference (TypeExpr.named name args origin).display)
    else
      match d.kind, hops with
      | .alias _, 0 => .error (.aliasCycle d.name)
      | .alias target, hops + 1 =>
        (sitedWith (c.sitedFollow hops) target).map (·.aliased site)
      | _, _ => .ok (.classLike site d.members)

/-- The sited description of a type. -/
def sited (c : Catalog) (type : TypeExpr) : Except ResolveError Sited :=
  sitedWith (c.sitedFollow aliasHops) type

/-! ## Without sites -/

section
variable {place : String → List TypeExpr → Option Path → Except ResolveError Sited}
  {follow : String → List TypeExpr → Option Path → Except ResolveError Description}
  (hf : ∀ name args origin, (place name args origin).map Sited.erase = follow name args origin)
include hf

end

section
variable {place : String → List TypeExpr → Option Path → Except ResolveError Sited}
  {follow : String → List TypeExpr → Option Path → Except ResolveError Description}

mutual

theorem erase_sitedWith
    (hf : ∀ name args origin, (place name args origin).map Sited.erase = follow name args origin) :
    ∀ t : TypeExpr, (sitedWith place t).map Sited.erase = describeWith follow t
  | .keyword kind => rfl
  | .literal value => rfl
  | .array element => by
    rw [sitedWith, describeWith, ← erase_sitedWith hf element]
    cases sitedWith place element <;> rfl
  | .object ms => rfl
  | .union ts => by
    rw [sitedWith, describeWith, ← erase_sitedAll hf ts]
    cases sitedAll place ts <;> rfl
  | .function => rfl
  | .param name => rfl
  | .named name args origin => hf name args origin
  | .unsupported kind => rfl

theorem erase_sitedAll
    (hf : ∀ name args origin, (place name args origin).map Sited.erase = follow name args origin) :
    ∀ ts : List TypeExpr, (sitedAll place ts).map Sited.eraseAll = describeAll follow ts
  | [] => rfl
  | t :: ts => by
    rw [sitedAll, describeAll, ← erase_sitedWith hf t, ← erase_sitedAll hf ts]
    cases sitedWith place t with
    | error e => rfl
    | ok d =>
      cases sitedAll place ts with
      | error e => rfl
      | ok ds =>
        show Except.ok (Sited.eraseAll (d.alternatives ++ ds)) = _
        rw [Sited.eraseAll_append, Sited.eraseAll_alternatives]
        rfl

end

end

variable {c : Catalog}

theorem erase_sitedFollow (hops : Nat) (name : String) (args : List TypeExpr)
    (origin : Option Path) :
    (c.sitedFollow hops name args origin).map Sited.erase = c.follow hops name args origin := by
  unfold sitedFollow follow
  rw [← locate?_declaration]
  cases h : c.locate? name origin with
  | none => dsimp only [Option.map_none]; split_ifs <;> rfl
  | some x =>
    obtain ⟨site, d⟩ := x
    obtain ⟨-, hname⟩ := at?_of_locate? h
    dsimp only [Option.map_some] at hname ⊢
    split_ifs
    · rfl
    · rw [hname]
      cases d.kind with
      | interfaceType | classType => rfl
      | «alias» target =>
        cases hops with
        | zero => rfl
        | succ hops =>
          dsimp only
          rw [← erase_sitedWith (erase_sitedFollow hops) target]
          cases sitedWith (c.sitedFollow hops) target with
          | error e => rfl
          | ok t => exact congrArg Except.ok (Sited.erase_aliased site t)

/-- **Without sites, the sited description is the description.** -/
theorem erase_sited (t : TypeExpr) : (c.sited t).map Sited.erase = c.describe t :=
  erase_sitedWith (erase_sitedFollow aliasHops) t

/-! ## Sites -/

/-- The sites in a description are those of declarations. -/
inductive AtSites (c : Catalog) : Sited → Prop
  | primitive {kind} : AtSites c (.primitive kind)
  | literal {value} : AtSites c (.literal value)
  | array {d} : AtSites c d → AtSites c (.array d)
  | object {ms} : AtSites c (.object ms)
  | union {ds} : (∀ d ∈ ds, AtSites c d) → AtSites c (.union ds)
  | date : AtSites c .date
  | classLike {site d} : c.at? site = some d → AtSites c (.classLike site d.members)
  | named {site d ms} : c.at? site = some d → AtSites c (.named site ms)
  | reference {name} : AtSites c (.reference name)
  | unsupported {kind} : AtSites c (.unsupported kind)

theorem AtSites.of_mem_alternatives {d e : Sited} (h : c.AtSites d) (he : e ∈ d.alternatives) :
    c.AtSites e := by
  cases h with
  | union hs => exact hs e he
  | primitive | literal | array | object | date | classLike | named | reference | unsupported =>
    cases List.mem_singleton.1 he
    constructor <;> assumption

theorem AtSites.aliased {site : Site} {d : Declaration} (hd : c.at? site = some d) {e : Sited}
    (he : c.AtSites e) : c.AtSites (e.aliased site) := by
  cases he with
  | object => exact .named hd
  | primitive | literal | array | union | date | classLike | named | reference | unsupported =>
    unfold Sited.aliased
    constructor <;> assumption

section
variable {place : String → List TypeExpr → Option Path → Except ResolveError Sited}
  (hf : ∀ {name args origin d}, place name args origin = .ok d → c.AtSites d)
include hf

end

section
variable {place : String → List TypeExpr → Option Path → Except ResolveError Sited}

mutual

theorem atSites_of_sitedWith
    (hf : ∀ {name args origin d}, place name args origin = .ok d → c.AtSites d) :
    ∀ {t : TypeExpr} {d : Sited}, sitedWith place t = .ok d → c.AtSites d
  | .keyword kind, d, h => by cases h; exact .primitive
  | .literal value, d, h => by cases h; exact .literal
  | .array element, d, h => by
    obtain ⟨e, he, h⟩ := bind_eq_ok.1 h
    cases h
    exact .array (atSites_of_sitedWith hf he)
  | .object ms, d, h => by cases h; exact .object
  | .union ts, d, h => by
    obtain ⟨ds, hds, h⟩ := bind_eq_ok.1 h
    cases h
    exact .union (atSites_of_sitedAll hf hds)
  | .function, d, h => by cases h; exact .primitive
  | .param name, d, h => by cases h; exact .reference
  | .named name args origin, d, h => hf h
  | .unsupported kind, d, h => by cases h; exact .unsupported

theorem atSites_of_sitedAll
    (hf : ∀ {name args origin d}, place name args origin = .ok d → c.AtSites d) :
    ∀ {ts : List TypeExpr} {ds : List Sited}, sitedAll place ts = .ok ds → ∀ d ∈ ds, c.AtSites d
  | [], ds, h, d, hd => by cases h; cases hd
  | t :: ts, ds, h, d, hd => by
    obtain ⟨e, he, h⟩ := bind_eq_ok.1 h
    obtain ⟨es, hes, h⟩ := bind_eq_ok.1 h
    cases h
    rcases List.mem_append.1 hd with hd | hd
    · exact (atSites_of_sitedWith hf he).of_mem_alternatives hd
    · exact atSites_of_sitedAll hf hes d hd

end

end

theorem atSites_of_sitedFollow : ∀ {hops : Nat} {name : String} {args : List TypeExpr}
    {origin : Option Path} {d : Sited}, c.sitedFollow hops name args origin = .ok d →
    c.AtSites d := by
  intro hops name args origin d h
  unfold sitedFollow at h
  split at h
  · split_ifs at h
    cases h; exact .date
  · rename_i site e he
    obtain ⟨hd, -⟩ := at?_of_locate? he
    split_ifs at h
    · cases h; exact .reference
    · split at h
      · cases h
      · obtain ⟨f, hf, rfl⟩ := map_eq_ok.1 h
        exact (atSites_of_sitedWith atSites_of_sitedFollow hf).aliased hd
      · cases h; exact .classLike hd

/-- **All sites in the sited description of a type are sites of declarations.** -/
theorem atSites_of_sited {t : TypeExpr} {d : Sited} (h : c.sited t = .ok d) : c.AtSites d :=
  atSites_of_sitedWith atSites_of_sitedFollow h

end Catalog

end InterfaceGuards
