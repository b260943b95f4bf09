/-
  Texts of code.

  * `Code.text_append`, `Code.shift_append`, …: texts and shifts piece by piece.
  * `Code.Same`: two sequences of pieces have the same text, however they are indented.
-/
import InterfaceGuards.Code.Piece

namespace InterfaceGuards

/-- The two have the same text at every depth. -/
def Code.Same (a b : Code) : Prop :=
  ∀ (indent : Code.Indent) (levels : Nat),
    (a.shift levels).text indent = (b.shift levels).text indent

namespace Code

@[simp] theorem text_append (indent : Indent) (a b : Code) :
    text indent (a ++ b) = text indent a ++ text indent b := by
  simp [text, String.join_append]

@[simp] theorem text_cons (indent : Indent) (p : Piece) (c : Code) :
    text indent (p :: c) = p.text indent ++ text indent c := by
  simp [text, String.join_cons]

@[simp] theorem text_nil (indent : Indent) : text indent [] = "" := by simp [text]

@[simp] theorem shift_append (k : Nat) (a b : Code) :
    shift k (a ++ b) = shift k a ++ shift k b := by
  simp [shift]

@[simp] theorem shift_cons (k : Nat) (p : Piece) (c : Code) :
    shift k (p :: c) = p.shift k :: shift k c := by
  simp [shift]

@[simp] theorem shift_nil (k : Nat) : shift k [] = [] := rfl

attribute [simp] Piece.shift Piece.text

theorem shift_shift (j k : Nat) (c : Code) : shift j (shift k c) = shift (k + j) c := by
  simp only [shift, List.map_map]
  congr 1
  funext p
  cases p with
  | line depth text => simp [Piece.shift, Nat.add_assoc]
  | raw text => rfl

theorem shift_zero (c : Code) : shift 0 c = c := by
  have : Piece.shift 0 = id := by
    funext p
    cases p <;> rfl
  rw [shift, this, List.map_id]

namespace Same

variable {a a' b b' : Code}

theorem text_eq (h : Same a b) (indent : Indent) : a.text indent = b.text indent := by
  simpa [shift_zero] using h indent 0

theorem rfl : Same a a := fun _ _ => Eq.refl _

theorem append (h : Same a a') (h' : Same b b') : Same (a ++ b) (a' ++ b') := by
  intro indent k
  rw [shift_append, shift_append, text_append, text_append, h, h']

theorem cons (p : Piece) (h : Same a b) : Same (p :: a) (p :: b) := by
  intro indent k
  rw [shift_cons, shift_cons, text_cons, text_cons, h]

theorem deeper (h : Same a b) : Same (Code.deeper a) (Code.deeper b) := by
  intro indent k
  rw [Code.deeper, Code.deeper, shift_shift, shift_shift, h]

theorem flatMap {α : Type} {xs : List α} {f g : α → Code} (h : ∀ x ∈ xs, Same (f x) (g x)) :
    Same (xs.flatMap f) (xs.flatMap g) := by
  induction xs with
  | nil => exact rfl
  | cons x xs ih =>
    rw [List.flatMap_cons, List.flatMap_cons]
    exact (h x (by simp)).append (ih fun y hy => h y (by simp [hy]))

end Same

end Code

end InterfaceGuards
