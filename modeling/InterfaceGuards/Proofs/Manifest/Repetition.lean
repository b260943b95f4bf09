/-
  Names that are declared again.

  * `Follows`: a string stands behind another one.
  * `Manifest.declared_pairwise`: of two declarations the one that is looked at first stands first,
    unless they are of different kinds.
  * `Manifest.Backwards`: a name of two declarations of different kinds, the first of which stands
    behind the second.
  * `Project.repeated_in_order_iff`: where a name is said to be declared first, it stands first,
    unless it is such a name.
-/
import InterfaceGuards.Proofs.Manifest.Acceptance
import InterfaceGuards.Proofs.Manifest.Layout

namespace InterfaceGuards

open Toml (Span Spanned InRow Widens Stands)

variable {doc : List Char} {lo hi : Nat} {first second : Spanned String}

/-! ## Order -/

/-- Two strings of a text stand one behind the other. -/
structure Follows (doc : List Char) (first second : Spanned String) : Prop where
  first_stands : Stands doc first.value first.span
  second_stands : Stands doc second.value second.span
  inOrder : first.span.stop ≤ second.span.start

/-- Only one of two strings stands behind the other. -/
theorem Follows.not_le (h : Follows doc first second) :
    ¬second.span.stop ≤ first.span.start := by
  have hfirst := h.first_stands.lt
  have hsecond := h.second_stands.lt
  have hle := h.inOrder
  omega

section
variable {α β : Type} {Q : Nat → Nat → α → Prop} {nameOf : α → Spanned String} {xs : List α}

/-- The names of things in a row stand one behind the other. -/
theorem follows_of_row (hQ : Widens Q)
    (hname : ∀ {lo hi x}, Q lo hi x → Placed doc lo hi (nameOf x)) (h : InRow Q lo hi xs) :
    xs.Pairwise fun x y => Follows doc (nameOf x) (nameOf y) := by
  refine (h.pairwise hQ).imp fun {x y} hxy => ?_
  obtain ⟨mid, hx, hy⟩ := hxy
  have hx := hname hx
  have hy := hname hy
  exact ⟨hx.stands, hy.stands, hx.stop.trans hy.start⟩

/-- What some things in a row have stands in a row. -/
theorem InRow.filterMap {Q' : Nat → Nat → β → Prop} (hQ' : Widens Q') {f : α → Option β}
    (hf : ∀ {lo hi x}, Q lo hi x → ∀ y ∈ f x, Q' lo hi y) (h : InRow Q lo hi xs) :
    InRow Q' lo hi (xs.filterMap f) := by
  induction h with
  | nil hle => exact .nil hle
  | @cons lo mid hi x xs hle hx _ ih =>
    cases hy : f x with
    | none =>
      rw [List.filterMap_cons_none hy]
      exact InRow.widens hQ' hle le_rfl ih
    | some y =>
      rw [List.filterMap_cons_some hy]
      exact .cons hle (hf hx y hy) ih

/-- Of related things the later one is related to those before it. -/
theorem related_of_split {R : α → α → Prop} {pre post : List α} {x y : α}
    (h : (pre ++ x :: post).Pairwise R) (hy : y ∈ pre) : R y x :=
  (List.pairwise_append.1 h).2.2 y hy x (List.mem_cons_self ..)

end

namespace Manifest

variable {u : UnitEntry} {what : String} {before : List (Spanned String)} {name : Spanned String}

/-! ## Declarations of a unit -/

/-- Two names stand one behind the other, or the other way round if they are names of declarations
    of different kinds. -/
def Ordered (doc : List Char) (d d' : Declared) : Prop :=
  Follows doc d.name d'.name ∨ d.kind ≠ d'.kind ∧ Follows doc d'.name d.name

/-- **Of two declarations of a unit the one that is looked at first stands first**, unless they are
    of different kinds. -/
theorem declared_pairwise (h : u.Laid doc lo hi) : (declared u).Pairwise (Ordered doc) := by
  have hinterface {d : StructureEntry} (hd : d ∈ u.interfaces) :=
    (h.interfaces.mem StructureEntry.laid_widens hd).name.stands
  have hclass {d : StructureEntry} (hd : d ∈ u.classes) :=
    (h.classes.mem StructureEntry.laid_widens hd).name.stands
  have halias {d : AliasEntry} (hd : d ∈ u.aliases) :=
    (h.aliases.mem AliasEntry.laid_widens hd).name.stands
  have mixed {d d' : Declared} (hkind : d.kind ≠ d'.kind)
      (hd : Stands doc d.name.value d.name.span) (hd' : Stands doc d'.name.value d'.name.span)
      (hapart : d.name.span.Apart d'.name.span) : Ordered doc d d' :=
    hapart.imp (fun hle => ⟨hd, hd', hle⟩) fun hle => ⟨hkind, hd', hd, hle⟩
  rw [declared, List.pairwise_append, List.pairwise_append, List.pairwise_map, List.pairwise_map,
    List.pairwise_map]
  refine ⟨⟨?_, ?_, ?_⟩, ?_, ?_⟩
  · exact (follows_of_row StructureEntry.laid_widens (·.name) h.interfaces).imp .inl
  · exact (follows_of_row StructureEntry.laid_widens (·.name) h.classes).imp .inl
  · intro _ hmem _ hmem'
    obtain ⟨d, hd, rfl⟩ := List.mem_map.1 hmem
    obtain ⟨d', hd', rfl⟩ := List.mem_map.1 hmem'
    exact mixed (by simp) (hinterface hd) (hclass hd') (h.interfaces_classes d hd d' hd')
  · exact (follows_of_row AliasEntry.laid_widens (·.name) h.aliases).imp .inl
  · intro _ hmem _ hmem'
    obtain ⟨d', hd', rfl⟩ := List.mem_map.1 hmem'
    rcases List.mem_append.1 hmem with hmem | hmem
    · obtain ⟨d, hd, rfl⟩ := List.mem_map.1 hmem
      exact mixed (by simp) (hinterface hd) (halias hd') (h.interfaces_aliases d hd d' hd')
    · obtain ⟨d, hd, rfl⟩ := List.mem_map.1 hmem
      exact mixed (by simp) (hclass hd) (halias hd') (h.classes_aliases d hd d' hd')

/-- The type parameters and the members of a declaration stand in rows. -/
theorem rows_of_declared (h : u.Laid doc lo hi) {d : Declared} (hd : d ∈ declared u) :
    InRow (Placed doc) lo hi d.typeParams ∧ InRow (MemberEntry.Laid doc) lo hi d.members := by
  rcases List.mem_append.1 hd with hmem | hmem
  · rcases List.mem_append.1 hmem with hmem | hmem
    · obtain ⟨d, hentry, rfl⟩ := List.mem_map.1 hmem
      have hlaid := h.interfaces.mem StructureEntry.laid_widens hentry
      exact ⟨hlaid.typeParams, hlaid.members⟩
    · obtain ⟨d, hentry, rfl⟩ := List.mem_map.1 hmem
      have hlaid := h.classes.mem StructureEntry.laid_widens hentry
      exact ⟨hlaid.typeParams, hlaid.members⟩
  · obtain ⟨d, hentry, rfl⟩ := List.mem_map.1 hmem
    have hlaid := h.aliases.mem AliasEntry.laid_widens hentry
    exact ⟨hlaid.typeParams, .nil hlaid.typeParams.le⟩

/-! ## Names that have to be fresh -/

theorem mem_inTurn {α : Type} {ask : List α → α → List Demand} {c : Demand} {before xs : List α} :
    c ∈ inTurn ask before xs ↔ ∃ pre x post, xs = pre ++ x :: post ∧ c ∈ ask (before ++ pre) x := by
  induction xs generalizing before with
  | nil => simp [inTurn]
  | cons x xs ih =>
    rw [inTurn, List.mem_append, ih]
    constructor
    · rintro (hc | ⟨pre, y, post, rfl, hc⟩)
      · exact ⟨[], x, xs, rfl, by rwa [List.append_nil]⟩
      · exact ⟨x :: pre, y, post, rfl, by rwa [List.append_assoc] at hc⟩
    · rintro ⟨pre, y, post, hxs, hc⟩
      cases pre with
      | nil =>
        obtain ⟨rfl, rfl⟩ := List.cons.inj hxs
        rw [List.append_nil] at hc
        exact .inl hc
      | cons z pre =>
        obtain ⟨rfl, rfl⟩ := List.cons.inj hxs
        exact .inr ⟨pre, y, post, rfl, by rwa [List.append_assoc]⟩

theorem follows_of_paramDemands {place : Place} {params : List (Spanned String)}
    (h : InRow (Placed doc) lo hi params)
    (hfresh : .fresh what before name ∈ paramDemands place params) (hfirst : first ∈ before) :
    Follows doc first name := by
  obtain ⟨pre, param, post, rfl, hmem⟩ := mem_inTurn.1 hfresh
  simp only [List.mem_cons, reduceCtorEq, List.not_mem_nil, or_false, false_or,
    Demand.fresh.injEq] at hmem
  obtain ⟨-, rfl, rfl⟩ := hmem
  exact related_of_split (follows_of_row placed_widens id h) hfirst

theorem follows_of_memberDemands {members : List MemberEntry}
    (h : InRow (MemberEntry.Laid doc) lo hi members)
    (hfresh : .fresh what before name ∈ memberDemands members) (hfirst : first ∈ before) :
    Follows doc first name := by
  obtain ⟨pre, member, post, hnames, hmem⟩ := mem_inTurn.1 hfresh
  simp only [List.mem_singleton, Demand.fresh.injEq] at hmem
  obtain ⟨-, rfl, rfl⟩ := hmem
  have hrow := InRow.filterMap placed_widens (·.name) h
  rw [hnames] at hrow
  exact related_of_split (follows_of_row placed_widens id hrow) hfirst

/-- **A name that two declarations of different kinds in one unit have**, of which the one that is
    looked at first stands behind the other. -/
def Backwards (m : Manifest) (what : String) (first second : Spanned String) : Prop :=
  what = "declaration" ∧ second.span.stop ≤ first.span.start ∧
    ∃ u ∈ m.units, ∃ d d', [d, d'].Sublist (declared u) ∧ d.kind ≠ d'.kind ∧
      d.name = first ∧ d'.name = second

/-- What has to be fresh is a path, a name of a declaration, or a name within one. -/
theorem fresh_of_unitDemands {units : List UnitEntry}
    (hfresh : .fresh what before name ∈ unitDemands units u) :
    (before = units.map UnitEntry.path ∧ name = u.path) ∨
      ∃ pre d post, declared u = pre ++ d :: post ∧
        ((what = "declaration" ∧ before = pre.map Declared.name ∧ name = d.name) ∨
          .fresh what before name ∈ paramDemands [u.path.value, d.name.value] d.typeParams ∨
          .fresh what before name ∈ memberDemands d.members) := by
  rcases List.mem_append.1 hfresh with hmem | hmem
  · simp only [List.mem_cons, reduceCtorEq, List.not_mem_nil, or_false, false_or,
      Demand.fresh.injEq] at hmem
    exact .inl hmem.2
  · obtain ⟨pre, d, post, hsplit, hmem⟩ := mem_inTurn.1 hmem
    refine .inr ⟨pre, d, post, hsplit, ?_⟩
    rw [declarationDemands, List.append_assoc, List.mem_append, List.mem_append] at hmem
    simpa only [List.mem_cons, reduceCtorEq, List.not_mem_nil, or_false, false_or,
      Demand.fresh.injEq, List.nil_append] using hmem

/-- **The names before one that has to be fresh stand before it**, unless the two are those of
    declarations of different kinds. -/
theorem follows_of_demands {m : Manifest} {baseDir : Path}
    (h : InRow (UnitEntry.Laid doc) lo hi m.units)
    (hfresh : .fresh what before name ∈ m.demands baseDir) (hfirst : first ∈ before) :
    Follows doc first name ∨ Follows doc name first ∧ m.Backwards what first name := by
  rcases List.mem_append.1 hfresh with hmem | hmem
  · obtain ⟨units, u, more, hunits, hmem⟩ := mem_inTurn.1 hmem
    have hu : u ∈ m.units := by
      rw [hunits]
      exact List.mem_append_right _ (List.mem_cons_self ..)
    have hlaid := h.mem UnitEntry.laid_widens hu
    rcases fresh_of_unitDemands hmem with ⟨rfl, rfl⟩ | ⟨pre, d, post, hsplit, hname⟩
    · obtain ⟨u', hu', rfl⟩ := List.mem_map.1 hfirst
      rw [hunits] at h
      have hpairwise := follows_of_row UnitEntry.laid_widens UnitEntry.Laid.path h
      exact .inl ((List.pairwise_append.1 hpairwise).2.2 u' hu' u (List.mem_cons_self ..))
    have hd : d ∈ declared u := by
      rw [hsplit]
      exact List.mem_append_right _ (List.mem_cons_self ..)
    obtain ⟨hparams, hmembers⟩ := rows_of_declared hlaid hd
    rcases hname with ⟨rfl, rfl, rfl⟩ | hparam | hmember
    · obtain ⟨d', hd', rfl⟩ := List.mem_map.1 hfirst
      have hpairwise := declared_pairwise hlaid
      rw [hsplit] at hpairwise
      refine (related_of_split hpairwise hd').imp_right fun ⟨hkind, hfollows⟩ => ?_
      refine ⟨hfollows, rfl, hfollows.inOrder, u, hu, d', d, ?_, hkind, rfl, rfl⟩
      rw [hsplit]
      exact (List.singleton_sublist.2 hd').append
        (List.singleton_sublist.2 (List.mem_cons_self ..))
    · exact .inl (follows_of_paramDemands hparams hparam hfirst)
    · exact .inl (follows_of_memberDemands hmembers hmember hfirst)
  · obtain ⟨u, -, hmem⟩ := List.mem_flatMap.1 hmem
    simp [typeDemands] at hmem

end Manifest

/-! ## Labels -/

/-- What a note is on. -/
def Label.span (l : Label) : Span := ⟨l.offset, l.offset + l.length⟩

theorem Label.span_on {text : String} {span : Span} (h : span.start ≤ span.stop) :
    (Label.on text span).span = span := by
  simp [Label.on, Label.span, h]

/-- **Both labels of a repetition are on the name**, and what is said to be declared first stands
    first, except exactly when the two are declarations of different kinds and the one whose kind is
    looked at first stands behind the other. -/
theorem Project.repeated_in_order_iff {text what name : String} {baseDir : Path}
    {first second : Span} (h : load text baseDir = .error (.duplicate what name first second)) :
    ∃ m l₁ l₂, (Toml.parse? text).bind Manifest.ofToml? = some m ∧
      (ManifestError.duplicate what name first second).labels = [l₁, l₂] ∧
      l₁.text = "first declared here" ∧ l₂.text = "declared again here" ∧
      Stands text.toList name l₁.span ∧ Stands text.toList name l₂.span ∧
      (l₁.span.stop ≤ l₂.span.start ↔ ¬m.Backwards what ⟨name, l₁.span⟩ ⟨name, l₂.span⟩) := by
  cases hm : (Toml.parse? text).bind Manifest.ofToml? with
  | none =>
    rw [load, hm] at h
    cases h
  | some m =>
    obtain ⟨met, d, rest, hsplit, -, -, hd⟩ := ((load_exact hm baseDir).2 _).1 h
    cases hd with
    | improper hrefused => cases hrefused
    | @repeated _ before second first hfilter =>
      have hfresh : .fresh what before second ∈ m.demands baseDir := by
        rw [hsplit]
        exact List.mem_append_right _ (List.mem_cons_self ..)
      obtain ⟨hfirst, hvalue⟩ : first ∈ before ∧ first.value = second.value := by
        rw [List.filter_append, List.filter_singleton, decide_eq_true rfl] at hfilter
        have hone : before.filter (·.value = second.value) ++ [second] = [first] ++ [second] :=
          hfilter
        rw [List.append_cancel_right_eq] at hone
        have hmem := List.mem_filter.1 (hone.symm ▸ List.mem_singleton_self first)
        exact ⟨hmem.1, of_decide_eq_true hmem.2⟩
      have hsecond : (⟨second.value, first.span⟩ : Spanned String) = first := by rw [← hvalue]
      refine ⟨m, _, _, rfl, rfl, rfl, rfl, ?_⟩
      rcases Manifest.follows_of_demands (Manifest.units_in_row hm) hfresh hfirst with
        hfollows | ⟨hfollows, hbackwards⟩
      · rw [Label.span_on hfollows.first_stands.lt.le, Label.span_on hfollows.second_stands.lt.le]
        refine ⟨hvalue ▸ hfollows.first_stands, hfollows.second_stands, ?_⟩
        exact iff_of_true hfollows.inOrder fun hbackwards => hfollows.not_le hbackwards.2.1
      · rw [Label.span_on hfollows.first_stands.lt.le, Label.span_on hfollows.second_stands.lt.le]
        refine ⟨hvalue ▸ hfollows.second_stands, hfollows.first_stands, ?_⟩
        exact iff_of_false hfollows.not_le (not_not_intro (hsecond ▸ hbackwards))

/-- A path that is repeated with an escape: the labels are on what is written, in order. -/
theorem Project.repeated_in_order_iff_escaped :
    let text := "units=[\x7bpath='a'\x7d,\x7bpath=\"\\u0061\"\x7d]"
    load text ⟨"/"⟩ = .error (.duplicate "unit" "a" ⟨13, 16⟩ ⟨24, 32⟩) ∧
      ∃ m l₁ l₂, (Toml.parse? text).bind Manifest.ofToml? = some m ∧
        (ManifestError.duplicate "unit" "a" ⟨13, 16⟩ ⟨24, 32⟩).labels = [l₁, l₂] ∧
        l₁.text = "first declared here" ∧ l₂.text = "declared again here" ∧
        Stands text.toList "a" l₁.span ∧ Stands text.toList "a" l₂.span ∧
        (l₁.span.stop ≤ l₂.span.start ↔ ¬m.Backwards "unit" ⟨"a", l₁.span⟩ ⟨"a", l₂.span⟩) := by
  intro text
  have h : load text ⟨"/"⟩ = .error (.duplicate "unit" "a" ⟨13, 16⟩ ⟨24, 32⟩) :=
    refusal?_eq_some.1 (by decide +kernel)
  exact ⟨h, repeated_in_order_iff h⟩

/-- An alias that stands before an interface of its name, which is looked at first: what is said to
    be declared first stands second. -/
theorem Project.repeated_backwards :
    let text := "units=[\x7bpath='a',aliases=[\x7bname='I',type='null'\x7d]," ++
      "interfaces=[\x7bname='I'\x7d]\x7d]"
    let e := ManifestError.duplicate "declaration" "I" ⟨68, 71⟩ ⟨32, 35⟩
    load text ⟨"/"⟩ = .error e ∧
      e.labels = [⟨"first declared here", 68, 3⟩, ⟨"declared again here", 32, 3⟩] ∧
      ¬∀ text baseDir what name first second,
        load text baseDir = .error (.duplicate what name first second) →
          first.start < second.start := by
  intro text e
  have h : load text ⟨"/"⟩ = .error e := refusal?_eq_some.1 (by decide +kernel)
  exact ⟨h, rfl, fun hall => absurd (hall _ _ _ _ _ _ h) (by decide)⟩

end InterfaceGuards
