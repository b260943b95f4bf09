/-
  Descriptions are in normal form.

  * `Description.InNormalForm`: no alternative of a union is a union, and a name stands before an
    object type only.
  * `Catalog.Leaves`: what a type consists of, from left to right, when unions are opened and
    aliases followed.
  * `Catalog.describe_normal`: descriptions are in normal form, and their alternatives are the
    leaves of the type, in order; so the leftmost leaf decides what the default is.
-/
import InterfaceGuards.Proofs.Synthesis.Declared

namespace InterfaceGuards

namespace Description

/-- Whether the description is a union. -/
def isUnion : Description → Bool
  | .union _ => true
  | _ => false

/-- **Normal form**: through elements and alternatives, no alternative of a union is a union, and
    every name stands before an object type. -/
inductive InNormalForm : Description → Prop
  | primitive {kind} : InNormalForm (.primitive kind)
  | literal {x} : InNormalForm (.literal x)
  | array {d} : InNormalForm d → InNormalForm (.array d)
  | object {ms} : InNormalForm (.object ms)
  | union {ds} : (∀ d ∈ ds, InNormalForm d) → (∀ d ∈ ds, d.isUnion = false) →
      InNormalForm (.union ds)
  | classLike {name ms} : InNormalForm (.classLike name ms)
  | named {name ms} : InNormalForm (.alias name (.object ms))
  | reference {name} : InNormalForm (.reference name)
  | unsupported {kind} : InNormalForm (.unsupported kind)

namespace InNormalForm

variable {d e : Description}

/-- The alternatives of a description in normal form are in normal form and are no unions. -/
theorem of_mem_alternatives (h : d.InNormalForm) (he : e ∈ d.alternatives) :
    e.InNormalForm ∧ e.isUnion = false := by
  cases h with
  | union hds hflat => exact ⟨hds e he, hflat e he⟩
  | primitive | literal | array | object | classLike | named | reference | unsupported =>
    obtain rfl := List.mem_singleton.1 he
    refine ⟨?_, rfl⟩
    constructor <;> assumption

/-- A name is put before an object type only. -/
theorem aliased (h : d.InNormalForm) (name : String) : (d.aliased name).InNormalForm := by
  cases h with
  | object => exact .named
  | primitive | literal | array | union | classLike | named | reference | unsupported =>
    unfold Description.aliased
    constructor <;> assumption

end InNormalForm

/-- What a description is right behind an alias, or behind none. -/
def behind (d : Description) (name : Option String) : Description := name.elim d d.aliased

theorem isUnion_behind (d : Description) (name : Option String) :
    (d.behind name).isUnion = d.isUnion := by
  cases name with
  | none => rfl
  | some name => cases d <;> rfl

theorem union_behind (ds : List Description) (name : Option String) :
    (union ds).behind name = .union ds := by
  cases name <;> rfl

theorem alternatives_eq_singleton {d : Description} (h : d.isUnion = false) :
    d.alternatives = [d] := by
  cases d <;> first | rfl | cases h

end Description

namespace Catalog

variable {c : Catalog} {t : TypeExpr} {made d : Description}

/-! ## Normal form -/

section
variable {follow : String → List TypeExpr → Option Path → Except ResolveError Description}

mutual

theorem normal_of_describeWith
    (hf : ∀ {name args origin d}, follow name args origin = .ok d → d.InNormalForm) :
    ∀ {t : TypeExpr} {d : Description}, describeWith follow t = .ok d → d.InNormalForm
  | .array element, d, h => by
    obtain ⟨e, he, h⟩ := bind_eq_ok.1 h
    cases h
    exact .array (normal_of_describeWith hf he)
  | .union ts, d, h => by
    obtain ⟨ds, hds, h⟩ := bind_eq_ok.1 h
    cases h
    have hall := normal_of_describeAll hf hds
    exact .union (fun d hd => (hall d hd).1) fun d hd => (hall d hd).2
  | .named name args origin, d, h => hf h
  | .keyword _, d, h => by cases h; exact .primitive
  | .literal _, d, h => by cases h; exact .literal
  | .object _, d, h => by cases h; exact .object
  | .function, d, h => by cases h; exact .primitive
  | .param _, d, h => by cases h; exact .reference
  | .unsupported _, d, h => by cases h; exact .unsupported

/-- What is put together to a union has been taken apart before. -/
theorem normal_of_describeAll
    (hf : ∀ {name args origin d}, follow name args origin = .ok d → d.InNormalForm) :
    ∀ {ts : List TypeExpr} {ds : List Description}, describeAll follow ts = .ok ds →
      ∀ d ∈ ds, d.InNormalForm ∧ d.isUnion = false
  | [], ds, h => by
    cases h
    exact fun d hd => by cases hd
  | t :: ts, ds, h => by
    obtain ⟨e, he, h⟩ := bind_eq_ok.1 h
    obtain ⟨es, hes, h⟩ := bind_eq_ok.1 h
    cases h
    intro d hd
    rcases List.mem_append.1 hd with hd | hd
    · exact (normal_of_describeWith hf he).of_mem_alternatives hd
    · exact normal_of_describeAll hf hes d hd

end

end

theorem normal_of_follow {hops : Nat} {name : String} {args : List TypeExpr}
    {origin : Option Path} {d : Description} (h : c.follow hops name args origin = .ok d) :
    d.InNormalForm := by
  cases follow_eq_ok_iff.1 h with
  | date | classLike => exact .classLike
  | generic => exact .reference
  | aliased _ _ _ hf => exact (normal_of_describeWith normal_of_follow hf).aliased _

/-! ## Leaves -/

/-- A type that is neither a union nor a reference to an alias, and the alias that it was found
    right behind. -/
structure Leaf where
  name : Option String
  type : TypeExpr

/-- The description of a leaf: an object type has the name of the alias before it. -/
def describeLeaf (c : Catalog) (l : Leaf) : Except ResolveError Description :=
  (c.describe l.type).map (·.behind l.name)

mutual

/-- **The leaves of a type** that is found right behind an alias, or behind none, from left to
    right: unions are opened, and in the place of a reference to an alias stands what the alias
    stands for. -/
inductive Leaves (c : Catalog) : Option String → TypeExpr → List Leaf → Prop
  | union {name ts ls} : LeavesOfAll c ts ls → Leaves c name (.union ts) ls
  | named {name target origin t ls} : c.StandsFor (.named target [] origin) t →
      Leaves c (some target) t ls → Leaves c name (.named target [] origin) ls
  | leaf {name t} : (∀ ts, t ≠ .union ts) → (∀ t', ¬ c.StandsFor t t') →
      Leaves c name t [⟨name, t⟩]

/-- The leaves of several types one after the other, each by itself. -/
inductive LeavesOfAll (c : Catalog) : List TypeExpr → List Leaf → Prop
  | nil : LeavesOfAll c [] []
  | cons {t ts ls ls'} : Leaves c none t ls → LeavesOfAll c ts ls' →
      LeavesOfAll c (t :: ts) (ls ++ ls')

end

theorem standsFor_named_iff {name : String} {args : List TypeExpr} {origin : Option Path} :
    c.StandsFor (.named name args origin) t ↔ args = [] ∧ ∃ e, c.lookup? name origin = some e ∧
      e.isGeneric = false ∧ e.kind = .alias t := by
  constructor
  · rintro ⟨_, _, e, heq, hfound, hplain, hkind⟩
    cases heq
    exact ⟨rfl, e, hfound, hplain, hkind⟩
  · rintro ⟨rfl, e, hfound, hplain, hkind⟩
    exact ⟨name, origin, e, rfl, hfound, hplain, hkind⟩

theorem StandsFor.unique {t' t'' : TypeExpr} (h : c.StandsFor t t') (h' : c.StandsFor t t'') :
    t' = t'' := by
  obtain ⟨name, origin, d, rfl, hfound, -, hkind⟩ := h
  obtain ⟨-, e, hfound', -, hkind'⟩ := standsFor_named_iff.1 h'
  cases hfound.symm.trans hfound'
  cases hkind.symm.trans hkind'
  rfl

mutual

/-- **A type has one list of leaves** at most. -/
theorem Leaves.unique : ∀ {name : Option String} {t : TypeExpr} {ls ls' : List Leaf},
    c.Leaves name t ls → c.Leaves name t ls' → ls' = ls
  | _, _, _, _, .union h, .union h' => LeavesOfAll.unique h h'
  | _, _, _, _, .union _, .leaf hunion _ => absurd rfl (hunion _)
  | _, _, _, _, .named hs h, .named hs' h' => by
    cases hs.unique hs'
    exact Leaves.unique h h'
  | _, _, _, _, .named hs _, .leaf _ halias => absurd hs (halias _)
  | _, _, _, _, .leaf hunion _, .union _ => absurd rfl (hunion _)
  | _, _, _, _, .leaf _ halias, .named hs _ => absurd hs (halias _)
  | _, _, _, _, .leaf _ _, .leaf _ _ => rfl

theorem LeavesOfAll.unique : ∀ {ts : List TypeExpr} {ls ls' : List Leaf},
    c.LeavesOfAll ts ls → c.LeavesOfAll ts ls' → ls' = ls
  | _, _, _, .nil, .nil => rfl
  | _, _, _, .cons h hs, .cons h' hs' => by rw [Leaves.unique h h', LeavesOfAll.unique hs hs']

end

/-! ## Within fewer aliases -/

/-- Every type is written in some catalog. -/
theorem exists_occurs (t : TypeExpr) : ∃ c : Catalog, c.Occurs t :=
  ⟨⟨[⟨⟨""⟩, [⟨"", .alias t, [], []⟩]⟩]⟩,
    .target ⟨_, List.mem_singleton.2 rfl, List.mem_singleton.2 rfl⟩ rfl⟩

/-- A reference that is described when so many aliases may stand behind it is described alike when
    more may. -/
theorem follow_of_le {m n : Nat} {name : String} {args : List TypeExpr} {origin : Option Path}
    {d : Description} (hmn : m ≤ n) (h : c.follow m name args origin = .ok d) :
    c.follow n name args origin = .ok d := by
  rw [follow_eq_ok_iff]
  cases follow_eq_ok_iff.1 h with
  | date hfound hname => exact .date hfound hname
  | generic hfound hgeneric => exact .generic hfound hgeneric
  | @aliased k e target f hfound hplain hkind hf =>
    obtain ⟨n, rfl⟩ := Nat.exists_eq_add_one.2 (Nat.lt_of_lt_of_le (Nat.succ_pos k) hmn)
    obtain ⟨c', ht⟩ := exists_occurs target
    have hkn : k ≤ n := Nat.le_of_succ_le_succ hmn
    exact .aliased hfound hplain hkind (describeWith_of_names (fun _ => follow_of_le hkn) ht hf)
  | classLike hfound hplain hkind => exact .classLike hfound hplain hkind

theorem describe_of_describeWith {hops : Nat} (hle : hops ≤ aliasHops)
    (h : describeWith (c.follow hops) t = .ok made) : c.describe t = .ok made := by
  obtain ⟨c', ht⟩ := exists_occurs t
  exact describeWith_of_names (fun _ => follow_of_le hle) ht h

/-! ## Alternatives -/

/-- The alternatives of the description are the leaves of the type, described one by one; the name
    is that of the alias right before the type. -/
def AmountsTo (c : Catalog) (name : Option String) (t : TypeExpr) (d : Description) : Prop :=
  ∃ ls, c.Leaves name t ls ∧
    List.Forall₂ (fun l e => c.describeLeaf l = .ok e) ls (d.behind name).alternatives

/-- A type that is a leaf amounts to its description. -/
theorem amountsTo_leaf (name : Option String) (hunion : ∀ ts, t ≠ .union ts)
    (halias : ∀ t', ¬ c.StandsFor t t') (h : c.describe t = .ok d) (hd : d.isUnion = false) :
    c.AmountsTo name t d := by
  have hleaf : c.describeLeaf ⟨name, t⟩ = .ok (d.behind name) := map_eq_ok.2 ⟨d, h, rfl⟩
  refine ⟨[⟨name, t⟩], .leaf hunion halias, ?_⟩
  rw [Description.alternatives_eq_singleton (by rw [Description.isUnion_behind, hd])]
  exact .cons hleaf .nil

/-- A type that is neither a union nor a reference is a leaf. -/
theorem amountsTo_plain (name : Option String) (hunion : ∀ ts, t ≠ .union ts)
    (hnamed : ∀ target args origin, t ≠ .named target args origin) (h : c.describe t = .ok d) :
    c.AmountsTo name t d := by
  refine amountsTo_leaf name hunion ?_ h ?_
  · rintro t' ⟨target, origin, -, rfl, -⟩
    exact hnamed _ _ _ rfl
  · cases t with
    | union ts => exact absurd rfl (hunion ts)
    | named target args origin => exact absurd rfl (hnamed _ _ _)
    | array element =>
      obtain ⟨e, -, h⟩ := bind_eq_ok.1 h
      cases h
      rfl
    | keyword | literal | object | function | param | unsupported =>
      cases h
      rfl

section
variable {follow : String → List TypeExpr → Option Path → Except ResolveError Description}

mutual

theorem amountsTo_of_describeWith
    (hsame : ∀ {t d}, describeWith follow t = .ok d → c.describe t = .ok d)
    (hf : ∀ name {target args origin d}, follow target args origin = .ok d →
      c.AmountsTo name (.named target args origin) d) :
    ∀ (name : Option String) {t : TypeExpr} {d : Description},
      describeWith follow t = .ok d → c.AmountsTo name t d
  | name, .union ts, d, h => by
    obtain ⟨ds, hds, h⟩ := bind_eq_ok.1 h
    cases h
    obtain ⟨ls, hls, hmade⟩ := leaves_of_describeAll hsame hf hds
    refine ⟨ls, .union hls, ?_⟩
    rw [Description.union_behind]
    exact hmade
  | name, .named target args origin, d, h => hf name h
  | name, .array element, d, h => amountsTo_plain name (by simp) (by simp) (hsame h)
  | name, .keyword _, d, h => amountsTo_plain name (by simp) (by simp) (hsame h)
  | name, .literal _, d, h => amountsTo_plain name (by simp) (by simp) (hsame h)
  | name, .object _, d, h => amountsTo_plain name (by simp) (by simp) (hsame h)
  | name, .function, d, h => amountsTo_plain name (by simp) (by simp) (hsame h)
  | name, .param _, d, h => amountsTo_plain name (by simp) (by simp) (hsame h)
  | name, .unsupported _, d, h => amountsTo_plain name (by simp) (by simp) (hsame h)

theorem leaves_of_describeAll
    (hsame : ∀ {t d}, describeWith follow t = .ok d → c.describe t = .ok d)
    (hf : ∀ name {target args origin d}, follow target args origin = .ok d →
      c.AmountsTo name (.named target args origin) d) :
    ∀ {ts : List TypeExpr} {ds : List Description}, describeAll follow ts = .ok ds →
      ∃ ls, c.LeavesOfAll ts ls ∧ List.Forall₂ (fun l e => c.describeLeaf l = .ok e) ls ds
  | [], ds, h => by
    cases h
    exact ⟨[], .nil, .nil⟩
  | t :: ts, ds, h => by
    obtain ⟨e, he, h⟩ := bind_eq_ok.1 h
    obtain ⟨es, hes, h⟩ := bind_eq_ok.1 h
    cases h
    obtain ⟨ls, hls, hmade⟩ := amountsTo_of_describeWith hsame hf none he
    obtain ⟨ls', hls', hmade'⟩ := leaves_of_describeAll hsame hf hes
    exact ⟨ls ++ ls', .cons hls hls', List.rel_append hmade hmade'⟩

end

end

theorem amountsTo_of_follow {hops : Nat} (hle : hops ≤ aliasHops) (name : Option String)
    {target : String} {args : List TypeExpr} {origin : Option Path} {d : Description}
    (h : c.follow hops target args origin = .ok d) :
    c.AmountsTo name (.named target args origin) d := by
  have hdescribed : c.describe (.named target args origin) = .ok d := follow_of_le hle h
  have hleaf (halias : ∀ t', ¬ c.StandsFor (.named target args origin) t')
      (hd : d.isUnion = false) : c.AmountsTo name (.named target args origin) d :=
    amountsTo_leaf name (fun _ => by simp) halias hdescribed hd
  cases follow_eq_ok_iff.1 h with
  | date hfound => exact hleaf (fun t' => by simp [standsFor_named_iff, hfound]) rfl
  | generic hfound hgeneric =>
    refine hleaf (fun t' hstands => ?_) rfl
    obtain ⟨rfl, e', hfound', hplain, -⟩ := standsFor_named_iff.1 hstands
    cases hfound.symm.trans hfound'
    simp [hplain] at hgeneric
  | @aliased n e t f hfound hplain hkind hf =>
    obtain ⟨ls, hls, hmade⟩ := amountsTo_of_describeWith
      (describe_of_describeWith (Nat.le_of_succ_le hle))
      (fun name => amountsTo_of_follow (Nat.le_of_succ_le hle) name) (some target) hf
    refine ⟨ls, .named (standsFor_named_iff.2 ⟨rfl, e, hfound, hplain, hkind⟩) hls, ?_⟩
    have hbehind : (f.aliased target).behind name = f.behind (some target) := by
      cases name with
      | none => rfl
      | some name => cases f <;> rfl
    obtain ⟨-, hname⟩ := declares_of_lookup? hfound
    rwa [hname, hbehind]
  | classLike hfound _ hkind =>
    refine hleaf (fun t' hstands => ?_) rfl
    obtain ⟨-, e', hfound', -, hkind'⟩ := standsFor_named_iff.1 hstands
    cases hfound.symm.trans hfound'
    exact hkind t' hkind'

/-- The alternatives of the description of a union are those of its types, in order. -/
theorem describe_union {ts : List TypeExpr} (h : c.describe (.union ts) = .ok made) :
    ∃ ds, List.Forall₂ (fun t d => c.describe t = .ok d) ts ds ∧
      made = .union (ds.flatMap Description.alternatives) := by
  obtain ⟨all, hall, h⟩ := bind_eq_ok.1 h
  cases h
  have hparts : ∀ {ts : List TypeExpr} {all : List Description},
      describeAll c.describeReference ts = .ok all →
      ∃ ds, List.Forall₂ (fun t d => c.describe t = .ok d) ts ds ∧
        all = ds.flatMap Description.alternatives := by
    intro ts
    induction ts with
    | nil =>
      intro all h
      cases h
      exact ⟨[], .nil, rfl⟩
    | cons t ts ih =>
      intro all h
      obtain ⟨d, hd, h⟩ := bind_eq_ok.1 h
      obtain ⟨rest, hrest, h⟩ := bind_eq_ok.1 h
      cases h
      obtain ⟨ds, hds, rfl⟩ := ih hrest
      exact ⟨d :: ds, .cons hd hds, rfl⟩
  obtain ⟨ds, hds, rfl⟩ := hparts hall
  exact ⟨ds, hds, rfl⟩

/-- The first alternative of a description decides the default. -/
theorem defaultWith_of_head? {first : Description} (h : made.alternatives.head? = some first)
    (inner : Scope → TypeExpr → Synthesis Script.Expr) (s : Scope) :
    Synthesis.defaultWith inner s made = Synthesis.defaultWith inner s first := by
  cases hunion : made.isUnion with
  | false =>
    rw [Description.alternatives_eq_singleton hunion] at h
    cases h
    rfl
  | true =>
    cases made with
    | union ds =>
      cases ds with
      | nil => cases h
      | cons d ds =>
        cases h
        rfl
    | _ => cases hunion

/-- **Descriptions are in normal form**: no alternative of a union is a union, and a name stands
    before an object type only.  A union has the alternatives of its types, in order; every type
    has those of its leaves, in order; and the leftmost leaf alone decides the default. -/
theorem describe_normal (h : c.describe t = .ok made) :
    made.InNormalForm ∧
    (∀ ts, t = .union ts → ∃ ds, List.Forall₂ (fun t d => c.describe t = .ok d) ts ds ∧
      made = .union (ds.flatMap Description.alternatives)) ∧
    ∃ ls, (∀ ls', c.Leaves none t ls' ↔ ls' = ls) ∧
      List.Forall₂ (fun l d => c.describeLeaf l = .ok d) ls made.alternatives ∧
      ∀ leaf rest, ls = leaf :: rest → ∃ first, c.describeLeaf leaf = .ok first ∧
        made.alternatives.head? = some first ∧
        ∀ inner s, Synthesis.defaultWith inner s made = Synthesis.defaultWith inner s first := by
  refine ⟨normal_of_describeWith normal_of_follow h, ?_, ?_⟩
  · rintro ts rfl
    exact describe_union h
  · have hsame {t d} (h : describeWith (c.follow aliasHops) t = .ok d) : c.describe t = .ok d := h
    obtain ⟨ls, hls, hmade⟩ :=
      amountsTo_of_describeWith hsame (fun name => amountsTo_of_follow le_rfl name) none h
    refine ⟨ls, fun ls' => ⟨hls.unique, fun heq => heq ▸ hls⟩, hmade, ?_⟩
    rintro leaf rest rfl
    obtain ⟨first, others, hfirst, -, hhead⟩ := List.forall₂_cons_left_iff.1 hmade
    have hhead : made.alternatives.head? = some first := by
      rw [show made.alternatives = first :: others from hhead]
      rfl
    exact ⟨first, hfirst, hhead, defaultWith_of_head? hhead⟩

end Catalog

/-- Aliases of unions of aliases, an object type among them. -/
def nestedCatalog : Catalog :=
  ⟨[⟨⟨"a.ts"⟩, [
    ⟨"Status", .alias (.union [.literal (.string "ok"), .literal (.string "err")]), [], []⟩,
    ⟨"Tree", .alias (.object [⟨some "left", some (.named "Tree" [] none), true, .property⟩]), [],
      []⟩,
    ⟨"Branch", .alias (.named "Tree" [] none), [], []⟩,
    ⟨"Result", .alias (.union [.named "Status" [] none, .named "Branch" [] none,
      .array (.named "Status" [] none)]), [], []⟩]⟩]⟩

/-- Only the object type keeps the name of its alias, the one right before it; the default comes
    from the leftmost literal. -/
theorem describe_normal_nested :
    let statuses := [Description.literal (.string "ok"), .literal (.string "err")]
    let tree := Description.alias "Tree"
      (.object [⟨some "left", some (.named "Tree" [] none), true, .property⟩])
    let made := Description.union (statuses ++ [tree, .array (.union statuses), .primitive .null])
    let t := TypeExpr.union [.named "Result" [] none, .keyword .null]
    nestedCatalog.describe t = .ok made ∧ made.InNormalForm ∧
      ∃ leaf rest, nestedCatalog.Leaves none t (leaf :: rest) ∧
        nestedCatalog.describeLeaf leaf = .ok (.literal (.string "ok")) ∧
        ∀ inner s, Synthesis.defaultWith inner s made = pure (.literal (.string "ok")) := by
  intro statuses tree made t
  have hmade : nestedCatalog.describe t = .ok made := by rfl
  obtain ⟨hnormal, -, ls, hls, hdescribed, hdefault⟩ := Catalog.describe_normal hmade
  obtain ⟨leaf, rest, -, -, rfl⟩ := List.forall₂_cons_right_iff.1 hdescribed
  obtain ⟨first, hfirst, hhead, hsame⟩ := hdefault leaf rest rfl
  cases hhead
  exact ⟨hmade, hnormal, leaf, rest, (hls _).2 rfl, hfirst, hsame⟩

end InterfaceGuards
