/-
  Unfolding types through aliases.

  * `TypeExpr.Mentions`: a reference by name that is met in a type, through elements and
    alternatives.
  * `Catalog.MentionsAlias`, `Catalog.Unfolds`: an alias that is met in a type, and what it stands
    for.
  * `Catalog.ReachesCycle`: an alias that is met in the unfolding of a type leads back to itself.
  * `Catalog.Follows`: so many aliases stand one behind another in the unfolding of a type.
  * `Catalog.aliasCycle_exact`: a type is said to have an alias cycle if it reaches one, or if more
    than `aliasHops` aliases stand one behind another; in a catalog with no more aliases than that,
    only cycles are called so.

  Members of objects, interfaces and classes are not unfolded.
-/
import InterfaceGuards.Proofs.Catalog.Permutation
import Mathlib.Data.List.Chain
import Mathlib.Logic.Relation

namespace InterfaceGuards

open Relation (ReflTransGen TransGen)

/-- A reference by name is met in a type: the type itself, or in an element or an alternative. -/
inductive TypeExpr.Mentions : TypeExpr → String → List TypeExpr → Option Path → Prop
  | named {name args origin} : Mentions (.named name args origin) name args origin
  | element {t name args origin} : Mentions t name args origin →
      Mentions (.array t) name args origin
  | alternative {ts t name args origin} : t ∈ ts → Mentions t name args origin →
      Mentions (.union ts) name args origin

namespace Catalog

variable {c : Catalog} {t : TypeExpr} {d e : Declaration}

/-- The name means something: a declaration, or the built-in class. -/
def IsKnown (c : Catalog) (name : String) (args : List TypeExpr) (origin : Option Path) : Prop :=
  (c.lookup? name origin).isSome ∨ name = Description.dateName ∧ args = []

/-- An alias is met in the type: one without type parameters, referenced without arguments. -/
def MentionsAlias (c : Catalog) (t : TypeExpr) (d : Declaration) : Prop :=
  ∃ name origin, t.Mentions name [] origin ∧ c.lookup? name origin = some d ∧
    d.isGeneric = false ∧ ∃ target, d.kind = .alias target

/-- An alias is met in what another one stands for. -/
def LeadsTo (c : Catalog) (d e : Declaration) : Prop :=
  ∃ target, d.kind = .alias target ∧ c.MentionsAlias target e

/-- An alias that is met in the first type stands for the second. -/
def Unfolds (c : Catalog) (t t' : TypeExpr) : Prop :=
  ∃ d, c.MentionsAlias t d ∧ d.kind = .alias t'

/-- No name that is met in the unfolding of the type is unknown. -/
def UnfoldsKnown (c : Catalog) (t : TypeExpr) : Prop :=
  ∀ t', ReflTransGen c.Unfolds t t' → ∀ name args origin, t'.Mentions name args origin →
    c.IsKnown name args origin

/-- The unfolding of the type reaches an alias that unfolds to itself. -/
def ReachesCycle (c : Catalog) (t : TypeExpr) : Prop :=
  ∃ t' d, ReflTransGen c.Unfolds t t' ∧ c.MentionsAlias t' d ∧ TransGen c.LeadsTo d d

/-- In the unfolding of the type, `n` aliases stand one behind another. -/
def Follows (c : Catalog) : (n : Nat) → TypeExpr → Prop
  | 0, _ => True
  | n + 1, t => ∃ t', c.Unfolds t t' ∧ c.Follows n t'

theorem UnfoldsKnown.mentions (h : c.UnfoldsKnown t) {name : String} {args : List TypeExpr}
    {origin : Option Path} (hm : t.Mentions name args origin) : c.IsKnown name args origin :=
  h t .refl name args origin hm

theorem UnfoldsKnown.unfolds (h : c.UnfoldsKnown t) {t' : TypeExpr} (ht : c.Unfolds t t') :
    c.UnfoldsKnown t' :=
  fun _ h' => h _ (.head ht h')

/-! ## Descriptions -/

section
variable {follow : String → List TypeExpr → Option Path → Except ResolveError Description}

mutual

/-- A type that has no description mentions a name that has none. -/
theorem mentions_of_describeWith : ∀ {t : TypeExpr} {e : ResolveError},
    describeWith follow t = .error e →
      ∃ name args origin, t.Mentions name args origin ∧ follow name args origin = .error e
  | .named name args origin, e, h => ⟨name, args, origin, .named, h⟩
  | .array element, e, h => by
    rcases bind_eq_error.1 h with h | ⟨_, -, h⟩
    · obtain ⟨name, args, origin, hm, he⟩ := mentions_of_describeWith h
      exact ⟨name, args, origin, .element hm, he⟩
    · cases h
  | .union ts, e, h => by
    rcases bind_eq_error.1 h with h | ⟨_, -, h⟩
    · obtain ⟨t, ht, name, args, origin, hm, he⟩ := mentions_of_describeAll h
      exact ⟨name, args, origin, .alternative ht hm, he⟩
    · cases h
  | .keyword _, _, h => by cases h
  | .literal _, _, h => by cases h
  | .object _, _, h => by cases h
  | .function, _, h => by cases h
  | .param _, _, h => by cases h
  | .unsupported _, _, h => by cases h

theorem mentions_of_describeAll : ∀ {ts : List TypeExpr} {e : ResolveError},
    describeAll follow ts = .error e →
      ∃ t ∈ ts, ∃ name args origin, t.Mentions name args origin ∧
        follow name args origin = .error e
  | [], e, h => by cases h
  | t :: ts, e, h => by
    rcases bind_eq_error.1 h with h | ⟨_, -, h⟩
    · exact ⟨t, by simp, mentions_of_describeWith h⟩
    · rcases bind_eq_error.1 h with h | ⟨_, -, h⟩
      · obtain ⟨t', ht', hm⟩ := mentions_of_describeAll h
        exact ⟨t', by simp [ht'], hm⟩
      · cases h

end

theorem exists_of_describeAll : ∀ {ts : List TypeExpr} {ds : List Description},
    describeAll follow ts = .ok ds → ∀ t ∈ ts, ∃ d, describeWith follow t = .ok d
  | [], _, _, t, ht => by cases ht
  | t :: ts, ds, h, t', ht' => by
    obtain ⟨d, hd, h⟩ := bind_eq_ok.1 h
    obtain ⟨es, hes, -⟩ := bind_eq_ok.1 h
    rcases List.mem_cons.1 ht' with rfl | ht'
    · exact ⟨d, hd⟩
    · exact exists_of_describeAll hes t' ht'

/-- Every name that a type with a description mentions has one. -/
theorem exists_of_mentions {name : String} {args : List TypeExpr} {origin : Option Path}
    (hm : t.Mentions name args origin) :
    ∀ {d : Description}, describeWith follow t = .ok d → ∃ e, follow name args origin = .ok e := by
  induction hm with
  | named => intro d h; exact ⟨d, h⟩
  | element _ ih =>
    intro d h
    obtain ⟨e, he, -⟩ := bind_eq_ok.1 h
    exact ih he
  | alternative ht _ ih =>
    intro d h
    obtain ⟨ds, hds, -⟩ := bind_eq_ok.1 h
    obtain ⟨e, he⟩ := exists_of_describeAll hds _ ht
    exact ih he

end

/-- Why a known name has no description: it is that of an alias, behind which no further one may
    stand or for which there is no description. -/
theorem follow_eq_error {hops : Nat} {name : String} {args : List TypeExpr} {origin : Option Path}
    {err : ResolveError} (hk : c.IsKnown name args origin)
    (h : c.follow hops name args origin = .error err) :
    ∃ d target, args = [] ∧ c.lookup? name origin = some d ∧ d.isGeneric = false ∧
      d.kind = .alias target ∧ (hops = 0 ∧ err = .aliasCycle d.name ∨
        ∃ n, hops = n + 1 ∧ describeWith (c.follow n) target = .error err) := by
  unfold follow at h
  cases hfound : c.lookup? name origin with
  | none =>
    rw [hfound] at h
    rcases hk with hk | ⟨hdate, hargs⟩
    · simp [hfound] at hk
    · simp [hdate, hargs] at h
  | some d =>
    rw [hfound] at h
    dsimp only at h
    split_ifs at h with hopaque
    obtain ⟨hargs, hgeneric⟩ : args = [] ∧ d.isGeneric = false := by simpa using hopaque
    split at h
    · rename_i target hkind
      cases h
      exact ⟨d, target, hargs, rfl, hgeneric, hkind, .inl ⟨rfl, rfl⟩⟩
    · rename_i target n hkind
      cases hmade : describeWith (c.follow n) target with
      | ok made => rw [hmade] at h; cases h
      | error e =>
        rw [hmade] at h
        cases h
        exact ⟨d, target, hargs, rfl, hgeneric, hkind, .inr ⟨n, rfl, hmade⟩⟩
    · cases h

theorem follow_alias {hops : Nat} {name : String} {origin : Option Path} {target : TypeExpr}
    (hd : c.lookup? name origin = some d) (hgeneric : d.isGeneric = false)
    (hkind : d.kind = .alias target) :
    c.follow hops name [] origin =
      match hops with
      | 0 => .error (.aliasCycle d.name)
      | n + 1 => (describeWith (c.follow n) target).map (·.aliased d.name) := by
  unfold follow
  rw [hd]
  cases hops with
  | zero => simp [hgeneric, hkind]
  | succ n => simp [hgeneric, hkind]

/-- **A type of known names fails for an alias cycle only**, and only behind as many aliases as may
    stand one behind another and one more. -/
theorem follows_of_error {hops : Nat} (hk : c.UnfoldsKnown t) {err : ResolveError}
    (h : describeWith (c.follow hops) t = .error err) :
    (∃ name, err = .aliasCycle name) ∧ c.Follows (hops + 1) t := by
  induction hops generalizing t with
  | zero =>
    obtain ⟨name, args, origin, hm, he⟩ := mentions_of_describeWith h
    obtain ⟨d, target, rfl, hd, hgeneric, hkind, ⟨-, rfl⟩ | ⟨n, hn, -⟩⟩ :=
      follow_eq_error (hk.mentions hm) he
    · exact ⟨⟨d.name, rfl⟩, target, ⟨d, ⟨name, origin, hm, hd, hgeneric, target, hkind⟩, hkind⟩,
        trivial⟩
    · cases hn
  | succ hops ih =>
    obtain ⟨name, args, origin, hm, he⟩ := mentions_of_describeWith h
    obtain ⟨d, target, rfl, hd, hgeneric, hkind, ⟨hn, -⟩ | ⟨n, hn, hmade⟩⟩ :=
      follow_eq_error (hk.mentions hm) he
    · cases hn
    · cases hn
      have hunfolds : c.Unfolds t target :=
        ⟨d, ⟨name, origin, hm, hd, hgeneric, target, hkind⟩, hkind⟩
      obtain ⟨herr, hfollows⟩ := ih (hk.unfolds hunfolds) hmade
      exact ⟨herr, target, hunfolds, hfollows⟩

/-- **A type with too many aliases one behind another has no description.** -/
theorem error_of_follows {hops : Nat} (h : c.Follows (hops + 1) t) :
    ∃ err, describeWith (c.follow hops) t = .error err := by
  induction hops generalizing t with
  | zero =>
    obtain ⟨target, ⟨d, ⟨name, origin, hm, hd, hgeneric, -⟩, hkind⟩, -⟩ := h
    cases hmade : describeWith (c.follow 0) t with
    | error err => exact ⟨err, rfl⟩
    | ok made =>
      obtain ⟨e, he⟩ := exists_of_mentions hm hmade
      rw [follow_alias hd hgeneric hkind] at he
      cases he
  | succ hops ih =>
    obtain ⟨target, ⟨d, ⟨name, origin, hm, hd, hgeneric, -⟩, hkind⟩, hrest⟩ := h
    cases hmade : describeWith (c.follow (hops + 1)) t with
    | error err => exact ⟨err, rfl⟩
    | ok made =>
      -- What the alias stands for would have a description as well.
      obtain ⟨e, he⟩ := exists_of_mentions hm hmade
      rw [follow_alias hd hgeneric hkind] at he
      obtain ⟨f, hf, -⟩ := map_eq_ok.1 he
      obtain ⟨err, herr⟩ := ih hrest
      rw [hf] at herr
      cases herr

/-- **When a type of known names has no description**: when more than `aliasHops` aliases stand one
    behind another. -/
theorem describe_eq_aliasCycle_iff (hk : c.UnfoldsKnown t) :
    (∃ name, c.describe t = .error (.aliasCycle name)) ↔ c.Follows (aliasHops + 1) t := by
  constructor
  · rintro ⟨name, h⟩
    exact (follows_of_error hk h).2
  · intro h
    obtain ⟨err, herr⟩ := error_of_follows h
    obtain ⟨⟨name, rfl⟩, -⟩ := follows_of_error hk herr
    exact ⟨name, herr⟩

theorem describe_eq_ok_iff (hk : c.UnfoldsKnown t) :
    (∃ made, c.describe t = .ok made) ↔ ¬ c.Follows (aliasHops + 1) t := by
  constructor
  · rintro ⟨made, h⟩ hf
    obtain ⟨err, herr⟩ := error_of_follows hf
    exact absurd (h.symm.trans herr) (by simp)
  · intro hf
    cases h : c.describe t with
    | ok made => exact ⟨made, rfl⟩
    | error err => exact absurd (follows_of_error hk h).2 hf

/-! ## Cycles -/

theorem MentionsAlias.exists_unfolds (h : c.MentionsAlias t d) :
    ∃ target, d.kind = .alias target ∧ c.Unfolds t target := by
  obtain ⟨-, -, -, -, -, target, hkind⟩ := id h
  exact ⟨target, hkind, d, h, hkind⟩

/-- From an alias on a cycle the unfolding goes on for ever. -/
theorem follows_of_transGen (n : Nat) : ∀ {t : TypeExpr} {d : Declaration}, c.MentionsAlias t d →
    TransGen c.LeadsTo d d → c.Follows n t := by
  induction n with
  | zero => intro t d _ _; trivial
  | succ n ih =>
    intro t d hm hcycle
    obtain ⟨target, hkind, hunfolds⟩ := hm.exists_unfolds
    -- The next alias on the cycle is met in what this one stands for.
    obtain ⟨e, hnext, hback⟩ := TransGen.head'_iff.1 hcycle
    obtain ⟨target', hkind', hm'⟩ := hnext
    obtain rfl : target' = target := by simpa [hkind] using hkind'.symm
    have hcycle' : TransGen c.LeadsTo e e := TransGen.tail' hback ⟨target', hkind, hm'⟩
    exact ⟨target', hunfolds, ih hm' hcycle'⟩

theorem ReachesCycle.follows (h : c.ReachesCycle t) (n : Nat) : c.Follows n t := by
  obtain ⟨t', d, hreach, hm, hcycle⟩ := h
  induction hreach using ReflTransGen.head_induction_on generalizing n with
  | refl => exact follows_of_transGen n hm hcycle
  | head hunfolds _ ih =>
    cases n with
    | zero => trivial
    | succ n => exact ⟨_, hunfolds, ih n⟩

/-! ## Few aliases -/

/-- The aliases declared. -/
def aliases (c : Catalog) : List Declaration :=
  c.declarations.filter fun d => d.kind matches .alias _

theorem MentionsAlias.mem_aliases (h : c.MentionsAlias t d) : d ∈ c.aliases := by
  obtain ⟨name, origin, -, hd, -, target, hkind⟩ := h
  obtain ⟨hdeclares, -⟩ := declares_of_lookup? hd
  exact List.mem_filter.2 ⟨mem_declarations.2 hdeclares, by simp [hkind]⟩

/-- The aliases that stand one behind another, all of them met in the unfolding. -/
theorem Follows.exists_chain : ∀ {n : Nat} {t : TypeExpr}, c.Follows n t →
    ∃ ds : List Declaration, ds.length = n ∧ ds.IsChain c.LeadsTo ∧
      (∀ d ∈ ds, ∃ t', ReflTransGen c.Unfolds t t' ∧ c.MentionsAlias t' d) ∧
      ∀ d ∈ ds.head?, c.MentionsAlias t d
  | 0, _, _ => ⟨[], rfl, .nil, by simp, by simp⟩
  | n + 1, t, h => by
    obtain ⟨target, ⟨d, hm, hkind⟩, hrest⟩ := h
    obtain ⟨ds, hlength, hchain, hmet, hhead⟩ := Follows.exists_chain hrest
    refine ⟨d :: ds, by simp [hlength], ?_, List.forall_mem_cons.2 ⟨⟨t, .refl, hm⟩, ?_⟩, ?_⟩
    · exact List.isChain_cons.2 ⟨fun e he => ⟨target, hkind, hhead e he⟩, hchain⟩
    · intro e he
      obtain ⟨t', hreach, he⟩ := hmet e he
      exact ⟨t', .head ⟨d, hm, hkind⟩ hreach, he⟩
    · simpa using hm

/-- More aliases one behind another than there are aliases make a cycle. -/
theorem Follows.reachesCycle {n : Nat} (h : c.Follows n t) (hn : c.aliases.length < n) :
    c.ReachesCycle t := by
  by_contra hacyclic
  obtain ⟨ds, hlength, hchain, hmet, -⟩ := h.exists_chain
  have hpairs : ds.Pairwise (TransGen c.LeadsTo) :=
    List.isChain_iff_pairwise.1 (hchain.imp fun _ _ => .single)
  have hnodup : ds.Nodup := by
    refine hpairs.imp_of_mem fun {d e} hd _ hde heq => ?_
    obtain ⟨t', hreach, hm⟩ := hmet d hd
    exact hacyclic ⟨t', d, hreach, hm, heq ▸ hde⟩
  have haliases : ds ⊆ c.aliases := by
    intro d hd
    obtain ⟨t', -, hm⟩ := hmet d hd
    exact hm.mem_aliases
  have := (List.subperm_of_subset hnodup haliases).length_le
  omega

theorem follows_iff_reachesCycle (hfew : c.aliases.length ≤ aliasHops) :
    c.Follows (aliasHops + 1) t ↔ c.ReachesCycle t :=
  ⟨fun h => h.reachesCycle (Nat.lt_succ_of_le hfew), fun h => h.follows _⟩

/-- **An alias cycle is reported** for a type of known names exactly if its unfolding reaches an
    alias that unfolds to itself, or more than `aliasHops` aliases stand one behind another in it;
    and otherwise the type has a description.  Where no more aliases than that are declared, it is
    reported exactly if the unfolding reaches one. -/
theorem aliasCycle_exact (hk : c.UnfoldsKnown t) :
    ((∃ name, c.describe t = .error (.aliasCycle name)) ↔
        c.ReachesCycle t ∨ c.Follows (aliasHops + 1) t) ∧
      ((∃ made, c.describe t = .ok made) ↔
        ¬ (c.ReachesCycle t ∨ c.Follows (aliasHops + 1) t)) ∧
      (c.aliases.length ≤ aliasHops →
        ((∃ name, c.describe t = .error (.aliasCycle name)) ↔ c.ReachesCycle t) ∧
          ((∃ made, c.describe t = .ok made) ↔ ¬ c.ReachesCycle t)) := by
  have hcycle : c.ReachesCycle t ∨ c.Follows (aliasHops + 1) t ↔ c.Follows (aliasHops + 1) t :=
    or_iff_right_of_imp fun h => h.follows _
  rw [hcycle, describe_eq_aliasCycle_iff hk, describe_eq_ok_iff hk]
  refine ⟨Iff.rfl, Iff.rfl, fun hfew => ?_⟩
  rw [follows_iff_reachesCycle hfew]
  exact ⟨Iff.rfl, Iff.rfl⟩

end Catalog

/-! ## A cycle, and a long chain -/

/-- A unit with an alias of a union in which it is met again. -/
def treeCatalog : Catalog :=
  ⟨[⟨⟨"a.ts"⟩,
    [⟨"Tree", .alias (.union [.array (.named "Tree" [] none), .keyword .null]), [], []⟩]⟩]⟩

theorem unfoldsKnown_tree : treeCatalog.UnfoldsKnown (.named "Tree" [] none) := by
  have met : ∀ t', ReflTransGen treeCatalog.Unfolds (.named "Tree" [] none) t' →
      ∀ name args origin, t'.Mentions name args origin → name = "Tree" ∧ origin = none := by
    intro t' h
    induction h with
    | refl =>
      rintro _ _ _ ⟨⟩
      exact ⟨rfl, rfl⟩
    | tail _ hlast ih =>
      obtain ⟨d, ⟨name, origin, hm, hd, -⟩, hkind⟩ := hlast
      obtain ⟨rfl, rfl⟩ := ih name [] origin hm
      cases hd
      cases hkind
      rintro name args origin (_ | _ | ⟨ht, hm⟩)
      simp only [List.mem_cons, List.not_mem_nil, or_false] at ht
      rcases ht with rfl | rfl
      · rcases hm with _ | ⟨_ | _ | _⟩
        exact ⟨rfl, rfl⟩
      · cases hm
  intro t' ht name args origin hm
  obtain ⟨rfl, rfl⟩ := met t' ht name args origin hm
  exact .inl rfl

/-- The alias of a union in which it is met again is reported. -/
theorem aliasCycle_exact_tree : treeCatalog.UnfoldsKnown (.named "Tree" [] none) ∧
    treeCatalog.ReachesCycle (.named "Tree" [] none) ∧
    ∃ name, treeCatalog.describe (.named "Tree" [] none) = .error (.aliasCycle name) := by
  have reaches : treeCatalog.ReachesCycle (.named "Tree" [] none) := by
    have again : treeCatalog.MentionsAlias (.union [.array (.named "Tree" [] none), .keyword .null])
        ⟨"Tree", .alias (.union [.array (.named "Tree" [] none), .keyword .null]), [], []⟩ :=
      ⟨"Tree", none, .alternative (List.mem_cons_self ..) (.element .named), rfl, rfl, _, rfl⟩
    exact ⟨_, _, .refl, ⟨"Tree", none, .named, rfl, rfl, _, rfl⟩, .single ⟨_, rfl, again⟩⟩
  obtain ⟨-, -, exact_of_few⟩ := Catalog.aliasCycle_exact unfoldsKnown_tree
  exact ⟨unfoldsKnown_tree, reaches, (exact_of_few (by decide)).1.2 reaches⟩

/-- The name of a link in a chain of aliases. -/
def linkName (i : Nat) : String := String.ofList (List.replicate (i + 1) 'A')

/-- The type that names a link; behind the last of 65 links it is the type of numbers. -/
def linkType (i : Nat) : TypeExpr :=
  if i < 65 then .named (linkName i) [] none else .keyword .number

/-- A link in the chain: an alias of the next one. -/
def link (i : Nat) : Declaration := ⟨linkName i, .alias (linkType (i + 1)), [], []⟩

/-- A unit with 65 aliases, each of which stands for the next, and the last for numbers. -/
def linkCatalog : Catalog := ⟨[⟨⟨"a.ts"⟩, (List.range 65).map link⟩]⟩

theorem linkName_injective {i j : Nat} (h : linkName i = linkName j) : i = j := by
  have := congrArg (fun s => s.toList.length) h
  simpa [linkName] using this

theorem lookup?_linkName {i : Nat} (hi : i < 65) :
    linkCatalog.lookup? (linkName i) none = some (link i) := by
  have hnodup : (((List.range 65).map link).map (·.name)).Nodup := by
    rw [List.map_map]
    exact List.nodup_range.map fun i j h => linkName_injective h
  have hfound : (⟨⟨"a.ts"⟩, (List.range 65).map link⟩ : SourceUnit).find? (linkName i) =
      some (link i) :=
    (SourceUnit.find?_eq_some_iff hnodup).2 ⟨List.mem_map_of_mem (List.mem_range.2 hi), rfl⟩
  rw [Catalog.lookup?_eq]
  simp [linkCatalog, hfound]

theorem mentions_linkType {i : Nat} {name : String} {args : List TypeExpr} {origin : Option Path}
    (h : (linkType i).Mentions name args origin) :
    i < 65 ∧ name = linkName i ∧ args = [] ∧ origin = none := by
  unfold linkType at h
  split_ifs at h with hi
  · cases h
    exact ⟨hi, rfl, rfl, rfl⟩
  · cases h

theorem mentionsAlias_linkType {i : Nat} {d : Declaration} :
    linkCatalog.MentionsAlias (linkType i) d ↔ i < 65 ∧ d = link i := by
  constructor
  · rintro ⟨name, origin, hm, hd, -⟩
    obtain ⟨hi, rfl, -, rfl⟩ := mentions_linkType hm
    rw [lookup?_linkName hi] at hd
    exact ⟨hi, by simpa using hd.symm⟩
  · rintro ⟨hi, rfl⟩
    refine ⟨linkName i, none, ?_, lookup?_linkName hi, rfl, _, rfl⟩
    rw [linkType, if_pos hi]
    exact .named

theorem unfolds_linkType {i : Nat} {t : TypeExpr} :
    linkCatalog.Unfolds (linkType i) t ↔ i < 65 ∧ t = linkType (i + 1) := by
  constructor
  · rintro ⟨d, hm, hkind⟩
    obtain ⟨hi, rfl⟩ := mentionsAlias_linkType.1 hm
    cases hkind
    exact ⟨hi, rfl⟩
  · rintro ⟨hi, rfl⟩
    exact ⟨link i, mentionsAlias_linkType.2 ⟨hi, rfl⟩, rfl⟩

theorem reaches_linkType {t : TypeExpr} (h : ReflTransGen linkCatalog.Unfolds (linkType 0) t) :
    ∃ i, t = linkType i := by
  induction h with
  | refl => exact ⟨0, rfl⟩
  | tail _ hlast ih =>
    obtain ⟨i, rfl⟩ := ih
    exact ⟨i + 1, (unfolds_linkType.1 hlast).2⟩

theorem leadsTo_link {i : Nat} {d : Declaration} (h : TransGen linkCatalog.LeadsTo (link i) d) :
    ∃ j, i < j ∧ d = link j := by
  induction h with
  | single hlast =>
    obtain ⟨target, hkind, hm⟩ := hlast
    cases hkind
    exact ⟨i + 1, Nat.lt_succ_self i, (mentionsAlias_linkType.1 hm).2⟩
  | tail _ hlast ih =>
    obtain ⟨j, hj, rfl⟩ := ih
    obtain ⟨target, hkind, hm⟩ := hlast
    cases hkind
    exact ⟨j + 1, Nat.lt_succ_of_lt hj, (mentionsAlias_linkType.1 hm).2⟩

theorem follows_linkType (n : Nat) :
    ∀ {i : Nat}, i + n = 65 → linkCatalog.Follows n (linkType i) := by
  induction n with
  | zero => exact fun _ => trivial
  | succ n ih =>
    intro i hi
    exact ⟨linkType (i + 1), unfolds_linkType.2 ⟨by omega, rfl⟩, ih (by omega)⟩

/-- A chain of 65 aliases that leads to the type of numbers is said to be a cycle. -/
theorem long_chain_called_cycle : linkCatalog.UnfoldsKnown (linkType 0) ∧
    ¬ linkCatalog.ReachesCycle (linkType 0) ∧
    (∃ name, linkCatalog.describe (linkType 0) = .error (.aliasCycle name)) ∧
    ¬ ((∃ name, linkCatalog.describe (linkType 0) = .error (.aliasCycle name)) ↔
      linkCatalog.ReachesCycle (linkType 0)) := by
  have known : linkCatalog.UnfoldsKnown (linkType 0) := by
    intro t ht name args origin hm
    obtain ⟨i, rfl⟩ := reaches_linkType ht
    obtain ⟨hi, rfl, -, rfl⟩ := mentions_linkType hm
    exact .inl (by rw [lookup?_linkName hi]; rfl)
  have acyclic : ¬ linkCatalog.ReachesCycle (linkType 0) := by
    rintro ⟨t, d, hreach, hm, hcycle⟩
    obtain ⟨i, rfl⟩ := reaches_linkType hreach
    obtain ⟨-, rfl⟩ := mentionsAlias_linkType.1 hm
    obtain ⟨j, hij, he⟩ := leadsTo_link hcycle
    have := linkName_injective (congrArg Declaration.name he)
    omega
  have called : ∃ name, linkCatalog.describe (linkType 0) = .error (.aliasCycle name) :=
    (Catalog.describe_eq_aliasCycle_iff known).2 (follows_linkType 65 rfl)
  exact ⟨known, acyclic, called, fun h => acyclic (h.1 called)⟩

end InterfaceGuards
