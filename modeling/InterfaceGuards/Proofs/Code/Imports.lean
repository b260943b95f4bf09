/-
  Symbols collected for a module.

  * `foldl_appendNew`: symbols that are put at the end one after another are listed in the order in
    which they first come.
  * `nodup_eraseDups`, `eraseDups_of_nodup`: none is listed twice, and when none comes twice they
    are listed as they come.
-/
import InterfaceGuards.Code.Imports
import Mathlib.Data.List.Induction

namespace InterfaceGuards.Code

variable {α : Type} [DecidableEq α] {xs : List α}

/-- What comes last is listed last, unless it came before. -/
theorem eraseDups_concat (xs : List α) (x : α) :
    (xs ++ [x]).eraseDups = appendNew xs.eraseDups x := by
  have hx : [x].eraseDups = [x] := by simp [List.eraseDups_cons]
  rw [List.eraseDups_append, appendNew]
  by_cases h : x ∈ xs <;> simp [List.removeAll, h, hx]

/-- **Symbols are listed in the order in which they first come.** -/
theorem foldl_appendNew (xs : List α) : xs.foldl appendNew [] = xs.eraseDups := by
  induction xs using List.reverseRecOn with
  | nil => rfl
  | append_singleton xs x ih => rw [List.foldl_append, ih, eraseDups_concat]; rfl

theorem nodup_appendNew (h : xs.Nodup) (x : α) : (appendNew xs x).Nodup := by
  unfold appendNew
  split_ifs with hx
  · exact h
  · simpa [List.nodup_append, h] using fun y hy (hyx : y = x) => hx (hyx ▸ hy)

/-- **None is listed twice.** -/
theorem nodup_eraseDups (xs : List α) : xs.eraseDups.Nodup := by
  induction xs using List.reverseRecOn with
  | nil => simp
  | append_singleton xs x ih => rw [eraseDups_concat]; exact nodup_appendNew ih x

/-- When none comes twice they are listed as they come. -/
theorem eraseDups_of_nodup (h : xs.Nodup) : xs.eraseDups = xs := by
  induction xs with
  | nil => rfl
  | cons x xs ih =>
    obtain ⟨hx, hxs⟩ := List.nodup_cons.1 h
    have hne : xs.filter (fun y => !y == x) = xs :=
      List.filter_eq_self.2 fun y hy => by simpa using fun hyx : y = x => hx (hyx ▸ hy)
    rw [List.eraseDups_cons, hne, ih hxs]

end InterfaceGuards.Code
