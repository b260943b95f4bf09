/-
  Normal forms are canonical.

  * `Component.Settled`: steps in normal form: names behind the root, or behind steps upwards.
  * `Component.Shortens`: leaving out steps that change nothing: `.`, a name that is taken back at
    once, and `..` at the root.
  * `Path.Equivalent`: spelled from one another by leaving out such steps and by putting them in.
  * `equivalent_iff`: equivalent spellings have one normal form, and no others have it.
  * `normalSteps_canonical`: what paths are joined to, seen from or looked up below may be spelled
    in any equivalent way.
-/
import InterfaceGuards.Proofs.Path.Arrival
import Mathlib.Logic.Relation

namespace InterfaceGuards

namespace Path

open Relation (EqvGen)

variable {p q p' q' : Path} {cs ds : List Component} {absolute : Bool}

/-! ## Steps in normal form -/

/-- Steps in normal form: names behind the root, if the path starts there, and otherwise behind as
    many steps upwards as lead out of where it starts. -/
inductive Component.Settled : (absolute : Bool) → List Component → Prop
  | root {names : List String} : (∀ c ∈ names.map Component.name, c.IsStep) →
      Settled true (.root :: names.map .name)
  | climb {n : Nat} {names : List String} : (∀ c ∈ names.map Component.name, c.IsStep) →
      Settled false (List.replicate n .parent ++ names.map .name)

/-- Leaving out steps that change nothing, whatever stands around them: `.`, a name that is taken
    back at once, and `..` at the root. -/
inductive Component.Shortens : List Component → List Component → Prop
  | stay (before after : List Component) : Shortens (before ++ .current :: after) (before ++ after)
  | back (before : List Component) (text : String) (after : List Component) :
      Shortens (before ++ .name text :: .parent :: after) (before ++ after)
  | top (before after : List Component) :
      Shortens (before ++ .root :: .parent :: after) (before ++ .root :: after)

namespace Component.Settled

/-- Only steps that start at the root have the root among them. -/
theorem root_mem_iff (h : Settled absolute cs) : .root ∈ cs ↔ absolute := by
  cases h <;> simp [List.mem_replicate]

/-- **The path rebuilt from steps in normal form** has them as its normal form. -/
theorem normalSteps_eq (h : Settled absolute cs) : (ofComponents cs).normalSteps = cs := by
  cases h with
  | @root names hnames =>
    have hfold := foldl_resolve_base .root names
    rw [List.singleton_append] at hfold
    rw [normalSteps, components_root hnames, hfold]
    simp [taken]
  | @climb n names hnames =>
    have hsteps : ∀ c ∈ List.replicate n Component.parent ++ names.map .name, c.IsStep := by
      intro c hc
      rcases List.mem_append.1 hc with hc | hc
      · rw [List.eq_of_mem_replicate hc]
        exact isStep_parent
      · exact hnames c hc
    rw [normalSteps, components_ofComponents hsteps, foldl_resolve_base (.climb n)]
    simp [taken]

end Component.Settled

open Component (Settled Shortens)

/-- **The steps that a path is resolved to are in normal form.** -/
theorem settled_normalSteps (p : Path) : Settled p.isAbsolute p.normalSteps := by
  cases hp : p.isAbsolute with
  | true =>
    rw [normalSteps_eq hp]
    exact .root (isStep_of_mem_place hp)
  | false =>
    obtain ⟨names, hsteps⟩ := exists_normalSteps hp
    have hnames : ∀ c ∈ names.map Component.name, c.IsStep := by
      intro c hc
      refine isStep_of_mem_normalSteps_relative hp c ?_
      rw [hsteps]
      exact List.mem_append_right _ hc
    rw [hsteps]
    exact .climb hnames

/-- Where a path starts can be told from its normal form. -/
theorem isAbsolute_eq_of_normalSteps (h : p.normalSteps = q.normalSteps) :
    p.isAbsolute = q.isAbsolute := by
  rw [Bool.eq_iff_iff, ← p.settled_normalSteps.root_mem_iff, ← q.settled_normalSteps.root_mem_iff,
    h]

/-- **Joining a path to another** depends on the normal form of the other alone. -/
theorem normalSteps_join_rebuilt (p q : Path) :
    (p.join q).normalSteps = ((ofComponents p.normalSteps).join q).normalSteps := by
  cases hq : q.isAbsolute with
  | true => rw [join, join, if_pos hq, if_pos hq]
  | false =>
    rw [normalSteps_join hq, normalSteps_join hq, p.settled_normalSteps.normalSteps_eq]

/-! ## Equivalent spellings -/

/-- Spelled from one another by leaving out steps that change nothing, and by putting them in. -/
def Equivalent (p q : Path) : Prop := EqvGen Shortens p.components q.components

/-- What is left out is resolved to nothing. -/
theorem Component.Shortens.foldl_resolve (h : Shortens cs ds) (taken : List Component) :
    cs.foldl Component.resolve taken = ds.foldl Component.resolve taken := by
  cases h <;> simp [List.foldl_append, Component.resolve]

/-- **Steps are resolved by leaving out**, one after the other: those taken so far stand in front of
    those to come. -/
theorem eqvGen_foldl_resolve (cs taken : List Component) :
    EqvGen Shortens (taken.reverse ++ cs) (cs.foldl Component.resolve taken).reverse := by
  induction cs generalizing taken with
  | nil =>
    rw [List.append_nil]
    exact .refl _
  | cons c cs ih =>
    have hstep : EqvGen Shortens (taken.reverse ++ c :: cs)
        ((Component.resolve taken c).reverse ++ cs) := by
      have hkept : ∀ d, EqvGen Shortens (taken.reverse ++ d :: cs) ((d :: taken).reverse ++ cs) := by
        intro d
        rw [List.reverse_cons, List.append_assoc]
        exact .refl _
      cases c with
      | root => exact hkept .root
      | name text => exact hkept (.name text)
      | current => exact .rel _ _ (.stay _ _)
      | parent =>
        rcases taken with _ | ⟨last, before⟩
        · exact hkept .parent
        · cases last with
          | current => exact hkept .parent
          | parent => exact hkept .parent
          | name text =>
            rw [List.reverse_cons, List.append_assoc]
            exact .rel _ _ (.back _ text _)
          | root =>
            show EqvGen Shortens _ ((Component.root :: before).reverse ++ cs)
            rw [List.reverse_cons, List.append_assoc, List.append_assoc]
            exact .rel _ _ (.top _ _)
    exact hstep.trans _ _ _ (ih _)

theorem foldl_resolve_of_eqvGen (h : EqvGen Shortens cs ds) :
    cs.foldl Component.resolve [] = ds.foldl Component.resolve [] := by
  induction h with
  | rel _ _ h => exact h.foldl_resolve []
  | refl _ => rfl
  | symm _ _ _ ih => exact ih.symm
  | trans _ _ _ _ _ ih ih' => exact ih.trans ih'

/-- **Equivalent spellings have one normal form**, and no others have it. -/
theorem equivalent_iff : p.Equivalent q ↔ p.normalSteps = q.normalSteps := by
  have hresolved : ∀ r : Path, EqvGen Shortens r.components r.normalSteps :=
    fun r => eqvGen_foldl_resolve r.components []
  constructor
  · intro h
    rw [normalSteps, foldl_resolve_of_eqvGen h, normalSteps]
  · intro h
    have hback := (hresolved q).symm
    rw [← h] at hback
    exact (hresolved p).trans _ _ _ hback

/-- Equivalent spellings are of one kind. -/
theorem Equivalent.isAbsolute_eq (h : p.Equivalent q) : p.isAbsolute = q.isAbsolute :=
  isAbsolute_eq_of_normalSteps (equivalent_iff.1 h)

/-! ## What depends on normal forms alone -/

theorem Equivalent.relativeTo?_eq (hp : p.Equivalent p') (hq : q.Equivalent q') :
    p.relativeTo? q = p'.relativeTo? q' := by
  rw [relativeTo?, relativeTo?, hp.isAbsolute_eq, hq.isAbsolute_eq, equivalent_iff.1 hp,
    equivalent_iff.1 hq]

theorem Equivalent.below?_eq (hp : p.Equivalent p') (hq : q.Equivalent q') :
    p.below? q = p'.below? q' := by
  rw [below?, below?, equivalent_iff.1 hp, equivalent_iff.1 hq]

theorem Equivalent.moduleSpecifier?_eq (hp : p.Equivalent p') (q : Path) :
    p.moduleSpecifier? q = p'.moduleSpecifier? q := by
  rw [moduleSpecifier?, moduleSpecifier?, hp.relativeTo?_eq (.refl _)]

/-- **Normal forms are canonical, and composing paths respects them.**  The steps that a path is
    resolved to are in normal form; the path rebuilt from them is resolved to the same steps, and a
    path may be joined to the rebuilt one just as well.  Two paths have one normal form exactly if
    they are equivalent spellings, which then are of one kind; so the two paths that a relative path
    leads between, the directory that a module is imported from, and both a path and the root that
    it is looked up below may be spelled in any equivalent way. -/
theorem normalSteps_canonical (p q : Path) :
    Settled p.isAbsolute p.normalSteps ∧
      (ofComponents p.normalSteps).normalSteps = p.normalSteps ∧
      (p.join q).normalSteps = ((ofComponents p.normalSteps).join q).normalSteps ∧
      (p.Equivalent q ↔ p.normalSteps = q.normalSteps) ∧
      ∀ p' q' : Path, p.Equivalent p' → q.Equivalent q' →
        p.isAbsolute = p'.isAbsolute ∧
        p.relativeTo? q = p'.relativeTo? q' ∧
        p.moduleSpecifier? q = p'.moduleSpecifier? q ∧
        p.below? q = p'.below? q' :=
  ⟨p.settled_normalSteps, p.settled_normalSteps.normalSteps_eq, normalSteps_join_rebuilt p q,
    equivalent_iff, fun _ _ hp hq =>
      ⟨hp.isAbsolute_eq, hp.relativeTo?_eq hq, hp.moduleSpecifier?_eq q, hp.below?_eq hq⟩⟩

/-- Two spellings of a directory and two of a file beside it. -/
theorem normalSteps_canonical_respelled :
    let p : Path := ⟨"./a/x/..//b"⟩
    let p' : Path := ⟨"a/./b/"⟩
    let q : Path := ⟨"y/../a/d.ts"⟩
    let q' : Path := ⟨"a//d.ts/."⟩
    p.Equivalent p' ∧ q.Equivalent q' ∧ p.relativeTo? q = some ⟨"../d.ts"⟩ ∧
      p'.relativeTo? q' = some ⟨"../d.ts"⟩ ∧ p'.moduleSpecifier? q = some "../d" := by
  intro p p' q q'
  obtain ⟨-, -, -, hp, hsame⟩ := normalSteps_canonical p p'
  obtain ⟨-, -, -, hq, -⟩ := normalSteps_canonical q q'
  have hp := hp.2 (by decide +kernel)
  have hq := hq.2 (by decide +kernel)
  obtain ⟨-, -, -, -, hrespelled⟩ := normalSteps_canonical p q
  obtain ⟨-, hway, hspecifier, -⟩ := hrespelled p' q' hp hq
  have hwritten : p.relativeTo? q = some ⟨"../d.ts"⟩ := by decide +kernel
  have himported : p.moduleSpecifier? q = some "../d" := by decide +kernel
  exact ⟨hp, hq, hwritten, hway ▸ hwritten, hspecifier ▸ himported⟩

end Path

end InterfaceGuards
