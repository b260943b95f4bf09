/-
  Opening computations that may fail: what each step gave when the whole gave a value.

  * `bind_eq_ok`, `map_eq_ok`: steps one after the other.
  * `forall₂_of_mapM`: a step for each element of a list.
-/
import Mathlib.Data.List.Forall2
import Mathlib.Tactic.SplitIfs

namespace InterfaceGuards

variable {ε α β : Type}

theorem bind_eq_ok {x : Except ε α} {f : α → Except ε β} {b : β} :
    x >>= f = .ok b ↔ ∃ a, x = .ok a ∧ f a = .ok b := by
  cases x with
  | error e => simp [bind, Except.bind]
  | ok a => simp [bind, Except.bind]

theorem bind_eq_error {x : Except ε α} {f : α → Except ε β} {e : ε} :
    x >>= f = .error e ↔ x = .error e ∨ ∃ a, x = .ok a ∧ f a = .error e := by
  cases x with
  | error e => simp [bind, Except.bind]
  | ok a => simp [bind, Except.bind]

theorem map_eq_ok {x : Except ε α} {f : α → β} {b : β} :
    x.map f = .ok b ↔ ∃ a, x = .ok a ∧ f a = b := by
  cases x with
  | error e => simp [Except.map]
  | ok a => simp [Except.map]

theorem exists_ok_of_isOk {x : Except ε α} (h : x.isOk) : ∃ a, x = .ok a := by
  cases x with
  | error e => cases h
  | ok a => exact ⟨a, rfl⟩

/-! ## Lists -/

/-- Whatever stands in the second of two related lists is related to an element of the first. -/
theorem exists_of_mem_forall₂ {R : α → β → Prop} {xs : List α} {ys : List β}
    (h : List.Forall₂ R xs ys) {y : β} (hy : y ∈ ys) : ∃ x ∈ xs, R x y := by
  induction h with
  | nil => cases hy
  | cons hfirst _ ih =>
    rcases List.mem_cons.1 hy with rfl | hy
    · exact ⟨_, List.mem_cons_self .., hfirst⟩
    · obtain ⟨x, hx, hxy⟩ := ih hy
      exact ⟨x, List.mem_cons_of_mem _ hx, hxy⟩

/-- What a list is mapped to is made of its elements one by one. -/
theorem forall₂_of_mapM {f : α → Except ε β} : ∀ {xs : List α} {ys : List β},
    xs.mapM f = .ok ys → List.Forall₂ (fun x y => f x = .ok y) xs ys
  | [], _, h => by
    cases h
    exact .nil
  | x :: xs, _, h => by
    rw [List.mapM_cons] at h
    obtain ⟨y, hy, h⟩ := bind_eq_ok.1 h
    obtain ⟨ys, hys, h⟩ := bind_eq_ok.1 h
    cases h
    exact .cons hy (forall₂_of_mapM hys)

variable {f : α → Except ε β} {xs : List α} {ys : List β}

/-- Whatever a list is mapped to comes from one of its elements. -/
theorem exists_of_mem_mapM (h : xs.mapM f = .ok ys) : ∀ y ∈ ys, ∃ x ∈ xs, f x = .ok y :=
  fun _ hy => exists_of_mem_forall₂ (forall₂_of_mapM h) hy

/-- Whatever a list is mapped to, each of its elements is mapped to something in it. -/
theorem exists_mem_of_mapM (h : xs.mapM f = .ok ys) : ∀ x ∈ xs, ∃ y ∈ ys, f x = .ok y :=
  fun _ hx => exists_of_mem_forall₂ (forall₂_of_mapM h).flip hx

/-- What a list is mapped to has the same keys when each element keeps its key. -/
theorem map_of_mapM {γ : Type} {key : α → γ} {key' : β → γ}
    (hf : ∀ x y, f x = .ok y → key' y = key x) (h : xs.mapM f = .ok ys) :
    ys.map key' = xs.map key := by
  have hkeys : List.Forall₂ (fun y x => key' y = key x) ys xs :=
    (forall₂_of_mapM h).flip.imp fun y x hxy => hf x y hxy
  rw [← List.forall₂_eq_eq_eq]
  exact List.forall₂_map_left_iff.2 (List.forall₂_map_right_iff.2 hkeys)

end InterfaceGuards
