/-
  What the expansion of a type leads to.

  * `Expansion`: members, a declared type or a description that code is made for, in a scope.
  * `Expansion.Calls`: what the making of code for one expansion calls for another.
  * `Expansion.Fits`: an expansion is inside a scope and made of types of a list; what it leads to
    is so, too (`Fits.run`).
  * `Expansion.Ends`, `Expansion.Loops`: the calls come to an end, and some type is met again below
    itself with nothing more being expanded.
  * `Expansion.Settles`, `Expansion.Descends`: conditions that hold of an expansion if they hold of
    its calls, and only if; they tell in how many types an expansion ends, and that it ends.
  * `ends_iff_not_loops`: an expansion ends unless it loops.
-/
import InterfaceGuards.Proofs.Recursion.Watched
import InterfaceGuards.Proofs.Synthesis.Bound
import Mathlib.Logic.Relation

namespace InterfaceGuards

open Relation (ReflTransGen TransGen)

/-- What code is made for. -/
inductive Task where
  | members (ms : List Member)
  | type (t : TypeExpr)
  | description (d : Description)

/-- Something that code is made for, in a scope. -/
structure Expansion where
  scope : Scope
  task : Task

theorem Description.size_le_sizeOfAll {d : Description} : ∀ {ds : List Description}, d ∈ ds →
    d.size ≤ Description.sizeOfAll ds
  | e :: ds, h => by
    rw [Description.sizeOfAll]
    rcases List.mem_cons.1 h with rfl | h
    · omega
    · have := size_le_sizeOfAll h
      omega

namespace Expansion

/-- **The calls of an expansion.**  Members call for their types, a type for what it is described
    as, and a description for what it is made of: a class or an alias only while it is not being
    expanded already.  A factory has no default for a class without members, needs nothing of the
    elements of an array, and takes the first alternative of a union. -/
inductive Calls : Purpose → Expansion → Expansion → Prop
  | member {p s ms m name t} : m ∈ ms → m.property? = .ok (name, t) →
      Calls p ⟨s, .members ms⟩ ⟨s.within name, .type t⟩
  | described {p s t d} : s.catalog.describe t = .ok d → Calls p ⟨s, .type t⟩ ⟨s, .description d⟩
  | classLike {p s name ms} : name ≠ Description.dateName → ¬ s.isExpanding name →
      (p = .factory → ms ≠ []) →
      Calls p ⟨s, .description (.classLike name ms)⟩ ⟨s.expand name, .members ms⟩
  | named {p s name d} : ¬ s.isExpanding name →
      Calls p ⟨s, .description (.alias name d)⟩ ⟨s.expand name, .description d⟩
  | object {p s ms} : Calls p ⟨s, .description (.object ms)⟩ ⟨s, .members ms⟩
  | element {s d} : Calls .guard ⟨s, .description (.array d)⟩ ⟨s, .description d⟩
  | first {s d ds} : Calls .factory ⟨s, .description (.union (d :: ds))⟩ ⟨s, .description d⟩
  | alternative {s d ds} : d ∈ ds → Calls .guard ⟨s, .description (.union ds)⟩ ⟨s, .description d⟩

/-- The calls, and the calls of these, come to an end. -/
def Ends (p : Purpose) (x : Expansion) : Prop := Acc (fun y x => Calls p x y) x

/-- A type is met again below itself, with no further name being expanded. -/
def Loops (p : Purpose) (x : Expansion) : Prop :=
  ∃ s t s', ReflTransGen (Calls p) x ⟨s, .type t⟩ ∧
    TransGen (Calls p) ⟨s, .type t⟩ ⟨s', .type t⟩ ∧ s'.expanding = s.expanding

variable {p : Purpose} {x y z : Expansion} {s s' : Scope} {ts : List TypeExpr}

/-! ## What stays so -/

/-- The expansion is inside the scope, and is made of types of the list. -/
structure Fits (s : Scope) (ts : List TypeExpr) (x : Expansion) : Prop where
  inside : s.Inside x.scope
  task : match x.task with
    | .members ms => ∀ m ∈ ms, ∀ t, m.type = some t → t ∈ ts
    | .type t => t ∈ ts
    | .description d => s.catalog.Consists (· ∈ ts) d

/-- **A call fits where its caller does.** -/
theorem Fits.step (hts : s.catalog.Closed (· ∈ ts)) (hx : Fits s ts x) (h : Calls p x y) :
    Fits s ts y := by
  obtain ⟨hin, htask⟩ := hx
  cases h with
  | member hm hp =>
    exact ⟨hin.trans (.within _ _), htask _ hm _ (MemberOf.type_of_property? hp)⟩
  | described hd => exact ⟨hin, Catalog.consists_of_describe hts htask (hin.catalog ▸ hd)⟩
  | classLike hdate hexp =>
    cases htask with
    | date => exact absurd rfl hdate
    | classLike hdecl =>
      refine ⟨hin.trans (.expand ?_ hexp), fun m hm t ht => hts.member hdecl hm ht⟩
      rw [hin.catalog]
      exact hdecl.mem_names
  | named hexp =>
    cases htask with
    | named hdecl _ ho =>
      refine ⟨hin.trans (.expand ?_ hexp), .object ho⟩
      rw [hin.catalog]
      exact hdecl.mem_names
  | object =>
    cases htask with
    | object ho => exact ⟨hin, fun m hm t ht => hts.property ho hm ht⟩
  | element =>
    cases htask with
    | array hd => exact ⟨hin, hd⟩
  | first =>
    cases htask with
    | union hds => exact ⟨hin, hds _ (List.mem_cons_self ..)⟩
  | alternative hd =>
    cases htask with
    | union hds => exact ⟨hin, hds _ hd⟩

theorem Fits.run (hts : s.catalog.Closed (· ∈ ts)) (hx : Fits s ts x)
    (h : ReflTransGen (Calls p) x y) : Fits s ts y := by
  induction h with
  | refl => exact hx
  | tail _ h ih => exact ih.step hts h

/-- **Scopes nest**: what is called is inside the scope of its caller. -/
theorem Fits.inside_of_run (hts : s.catalog.Closed (· ∈ ts)) (hx : Fits s ts x)
    (h : ReflTransGen (Calls p) x y) : x.scope.Inside y.scope := by
  have hx' : Fits x.scope ts x := by
    obtain ⟨hin, htask⟩ := hx
    exact ⟨.refl _, by rwa [hin.catalog]⟩
  exact (hx'.run (hx.inside.catalog ▸ hts) h).inside

/-! ## Expansions beside one another -/

/-- The same is expanded, at most somewhere else. -/
structure Beside (x y : Expansion) : Prop where
  scope : x.scope.Beside y.scope
  task : y.task = x.task

/-- **Calls do not depend on the members passed through.** -/
theorem Calls.beside {x' : Expansion} (h : Calls p x y) (hx : Beside x x') :
    ∃ y', Calls p x' y' ∧ Beside y y' := by
  obtain ⟨s', task⟩ := x'
  obtain ⟨hs, rfl⟩ := hx
  cases h with
  | member hm hp => exact ⟨_, .member hm hp, hs.within _ _, rfl⟩
  | described hd => exact ⟨_, .described (by rw [hs.catalog]; exact hd), hs, rfl⟩
  | classLike hdate hexp hms =>
    exact ⟨_, .classLike hdate (by rwa [hs.isExpanding]) hms, hs.expand _, rfl⟩
  | named hexp => exact ⟨_, .named (by rwa [hs.isExpanding]), hs.expand _, rfl⟩
  | object => exact ⟨_, .object, hs, rfl⟩
  | element => exact ⟨_, .element, hs, rfl⟩
  | first => exact ⟨_, .first, hs, rfl⟩
  | alternative hd => exact ⟨_, .alternative hd, hs, rfl⟩

theorem transGen_beside {x' : Expansion} (h : TransGen (Calls p) x y) (hx : Beside x x') :
    ∃ y', TransGen (Calls p) x' y' ∧ Beside y y' := by
  induction h with
  | single h =>
    obtain ⟨y', hy, hbeside⟩ := h.beside hx
    exact ⟨y', .single hy, hbeside⟩
  | tail _ h ih =>
    obtain ⟨y', hy, hbeside⟩ := ih
    obtain ⟨z', hz, hbeside'⟩ := h.beside hbeside
    exact ⟨z', hy.tail hz, hbeside'⟩

/-- What ends never comes back to where it stands: it could go round again from there. -/
theorem Ends.not_beside (h : Ends p x) (hxy : TransGen (Calls p) x y) : ¬ Beside x y := by
  have hacc : Acc (TransGen fun y x => Calls p x y) x := h.transGen
  clear h
  induction hacc generalizing y with
  | intro x _ ih =>
    intro hbeside
    obtain ⟨z, hyz, hbeside'⟩ := transGen_beside hxy hbeside
    exact ih y (TransGen.swap _ _ hxy) hyz hbeside'

theorem Ends.of_run (h : Ends p x) (hxy : ReflTransGen (Calls p) x y) : Ends p y := by
  induction hxy with
  | refl => exact h
  | tail _ hyz ih => exact ih.inv hyz

theorem Calls.catalog_unit (h : Calls p x y) :
    y.scope.catalog = x.scope.catalog ∧ y.scope.unit = x.scope.unit := by
  cases h <;> exact ⟨rfl, rfl⟩

theorem catalog_unit_of_transGen (h : TransGen (Calls p) x y) :
    y.scope.catalog = x.scope.catalog ∧ y.scope.unit = x.scope.unit := by
  induction h with
  | single h => exact h.catalog_unit
  | tail _ h ih => exact ⟨h.catalog_unit.1.trans ih.1, h.catalog_unit.2.trans ih.2⟩

theorem Ends.not_loops (h : Ends p x) : ¬ Loops p x := by
  rintro ⟨s, t, s', hx, hs, hexp⟩
  obtain ⟨hcatalog, hunit⟩ := catalog_unit_of_transGen hs
  exact (h.of_run hx).not_beside hs ⟨⟨hcatalog, hunit, hexp⟩, rfl⟩

/-! ## Conditions that calls hand up and down -/

/-- How many calls at most go before one for a type. -/
def rank (x : Expansion) : Nat :=
  match x.task with
  | .type _ => 0
  | .members _ => 1
  | .description d => d.size + 2

theorem Calls.rank_lt (h : Calls p x y) (hx : ∀ t, x.task ≠ .type t) : y.rank < x.rank := by
  cases h with
  | member => exact Nat.zero_lt_one
  | described => exact absurd rfl (hx _)
  | classLike => simp only [rank, Description.size]; omega
  | named => simp only [rank, Description.size]; omega
  | object => simp only [rank, Description.size]; omega
  | element => simp only [rank, Description.size]; omega
  | first => simp only [rank, Description.size, Description.sizeOfAll]; omega
  | alternative hd =>
    have := Description.size_le_sizeOfAll hd
    simp only [rank, Description.size]
    omega

/-- A condition, for a number of types that may be met one below the other: it holds of an expansion
    if it holds of what is called, and with a type more if the expansion is of a type. -/
structure Settles (p : Purpose) (Q : Nat → Expansion → Prop) : Prop where
  members : ∀ {n s ms}, (∀ y, Calls p ⟨s, .members ms⟩ y → Q n y) → Q n ⟨s, .members ms⟩
  type : ∀ {n s t}, (∀ y, Calls p ⟨s, .type t⟩ y → Q n y) → Q (n + 1) ⟨s, .type t⟩
  description : ∀ {n s d}, (∀ y, Calls p ⟨s, .description d⟩ y → Q n y) →
    Q n ⟨s, .description d⟩

/-- A condition, for a number of types that may be met one below the other, that an expansion hands
    down to what it calls, with a type less if it is of a type. -/
structure Descends (p : Purpose) (Q : Nat → Expansion → Prop) : Prop where
  members : ∀ {n s ms y}, Q n ⟨s, .members ms⟩ → Calls p ⟨s, .members ms⟩ y → Q n y
  type : ∀ {n s t y}, Q (n + 1) ⟨s, .type t⟩ → Calls p ⟨s, .type t⟩ y → Q n y
  description : ∀ {n s d y}, Q n ⟨s, .description d⟩ → Calls p ⟨s, .description d⟩ y → Q n y
  zero : ∀ {s t}, ¬ Q 0 ⟨s, .type t⟩

/-- **What meets a bounded number of types ends.** -/
theorem Descends.ends {Q : Nat → Expansion → Prop} (hQ : Descends p Q) :
    ∀ (n : Nat) (x : Expansion), Q n x → Ends p x
  | n, ⟨s, .members ms⟩, h => .intro _ fun y hy =>
    have := hy.rank_lt nofun
    ends hQ n y (hQ.members h hy)
  | n, ⟨s, .description d⟩, h => .intro _ fun y hy =>
    have := hy.rank_lt nofun
    ends hQ n y (hQ.description h hy)
  | 0, ⟨s, .type t⟩, h => absurd h hQ.zero
  | n + 1, ⟨s, .type t⟩, h => .intro _ fun y hy => ends hQ n y (hQ.type h hy)
termination_by n x => (n, x.rank)

/-- **If the types met have keys in a finite set**, and none is met below itself with the same key,
    the condition holds for as many types as there are keys. -/
theorem Settles.of_keys {Q : Nat → Expansion → Prop} (hQ : Settles p Q) {κ : Type} [DecidableEq κ]
    (key : Scope → TypeExpr → κ) : ∀ (n : Nat) (x : Expansion) (K : Finset κ), K.card ≤ n →
    (∀ s t, ReflTransGen (Calls p) x ⟨s, .type t⟩ → key s t ∈ K) →
    (∀ s t s' t', ReflTransGen (Calls p) x ⟨s, .type t⟩ →
      TransGen (Calls p) ⟨s, .type t⟩ ⟨s', .type t'⟩ → key s' t' ≠ key s t) → Q n x
  | n, ⟨s, .members ms⟩, K, hcard, hK, hne => hQ.members fun y hy =>
    have := hy.rank_lt nofun
    of_keys hQ key n y K hcard (fun _ _ h => hK _ _ (.head hy h))
      fun _ _ _ _ h => hne _ _ _ _ (.head hy h)
  | n, ⟨s, .description d⟩, K, hcard, hK, hne => hQ.description fun y hy =>
    have := hy.rank_lt nofun
    of_keys hQ key n y K hcard (fun _ _ h => hK _ _ (.head hy h))
      fun _ _ _ _ h => hne _ _ _ _ (.head hy h)
  | 0, ⟨s, .type t⟩, K, hcard, hK, _ => by
    have := hK s t .refl
    rw [Finset.card_eq_zero.1 (Nat.le_zero.1 hcard)] at this
    cases this
  | n + 1, ⟨s, .type t⟩, K, hcard, hK, hne => hQ.type fun y hy => by
    -- The key of the type that is left is not needed any more.
    refine of_keys hQ key n y (K.erase (key s t)) ?_ (fun s' t' h => ?_)
      fun _ _ _ _ h => hne _ _ _ _ (.head hy h)
    · rw [Finset.card_erase_of_mem (hK s t .refl)]
      omega
    · exact Finset.mem_erase.2 ⟨hne _ _ _ _ .refl (.head' hy h), hK _ _ (.head hy h)⟩
termination_by n x => (n, x.rank)

/-- **What does not loop meets few types**: no more of them one below the other than there are types
    to meet, for each name that may be expanded. -/
theorem Settles.of_not_loops {Q : Nat → Expansion → Prop} (hQ : Settles p Q) {n : Nat}
    (hts : s.catalog.Closed (· ∈ ts)) (hx : Fits s ts x)
    (hn : (s.catalog.names.length + 1) * ts.length ≤ n) (hloop : ¬ Loops p x) : Q n x := by
  classical
  refine hQ.of_keys (fun s' t => (s'.expanding.length - s.expanding.length, t)) n x
    (Finset.range (s.catalog.names.length + 1) ×ˢ ts.toFinset) ?_ (fun s' t h => ?_)
    fun s' t s'' t' h h' hkey => hloop ?_
  · rw [Finset.card_product, Finset.card_range]
    exact (Nat.mul_le_mul_left _ ts.toFinset_card_le).trans hn
  · obtain ⟨hin, ht⟩ := hx.run hts h
    have := hin.length_le
    exact Finset.mem_product.2 ⟨Finset.mem_range.2 (by dsimp only at *; omega),
      List.mem_toFinset.2 ht⟩
  · -- As many names are expanded at both: they are the same names.
    obtain ⟨hlength, rfl⟩ := Prod.mk.inj hkey
    have hfits := hx.run hts h
    have hin := hfits.inside_of_run (hfits.inside.catalog ▸ hts) h'.to_reflTransGen
    have hle := hfits.inside.length_le
    have hle' := hin.length_le
    exact ⟨s', t', s'', h, h', (hin.beside (by dsimp only at *; omega)).expanding⟩

theorem settles_ends : Settles p fun _ x => Ends p x :=
  ⟨fun h => .intro _ h, fun h => .intro _ h, fun h => .intro _ h⟩

/-- **An expansion ends unless it loops.** -/
theorem Fits.ends_iff_not_loops (hts : s.catalog.Closed (· ∈ ts)) (hx : Fits s ts x) :
    Ends p x ↔ ¬ Loops p x :=
  ⟨Ends.not_loops, settles_ends.of_not_loops hts hx le_rfl⟩

end Expansion

end InterfaceGuards
