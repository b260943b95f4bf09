/-
  What is at the places of a tree.

  * `node?_insert`, `node?_erase`, `node?_clear`: what a change leaves at every place.
  * `FileTree.IsTree`: whatever there is lies in a directory.
-/
import InterfaceGuards.FileTree
import Mathlib.Data.List.Induction

namespace InterfaceGuards

namespace FileTree

variable {t : FileTree} {x y : Location} {n : FileNode}

/-! ## Changes -/

@[simp] theorem node?_root : t.node? [] = some .directory := rfl

theorem ne_root_of_node? (h : t.node? x ≠ some .directory) : x ≠ [] := by
  rintro rfl
  exact h rfl

theorem lookup_filter (keep : Location → Bool) (nodes : List (Location × FileNode)) :
    (nodes.filter fun n => keep n.1).lookup y = if keep y then nodes.lookup y else none := by
  induction nodes with
  | nil => simp
  | cons node nodes ih =>
    obtain ⟨z, n⟩ := node
    rcases eq_or_ne y z with rfl | hyz
    · by_cases hk : keep y
      · simp [hk]
      · simpa [hk] using ih
    · have hbeq : (y == z) = false := by simpa using hyz
      by_cases hk : keep z <;> simp [hk, List.lookup_cons, hbeq, ih]

theorem node?_erase : (t.erase x).node? y = if y = x ∧ x ≠ [] then none else t.node? y := by
  rcases eq_or_ne y [] with rfl | hy
  · rw [if_neg]
    · rfl
    · rintro ⟨rfl, hx⟩
      exact hx rfl
  · have hfilter : (t.erase x).nodes = t.nodes.filter fun n => decide (n.1 ≠ x) := by
      simp [erase]
    rw [node?, if_neg hy, hfilter, lookup_filter fun z => decide (z ≠ x)]
    by_cases hyx : y = x
    · have hx : x ≠ [] := hyx ▸ hy
      simp [hyx, hx]
    · simp [hyx, node?, hy]

/-- **What is put at a place is there**, and nothing else has changed. -/
theorem node?_insert (hx : x ≠ []) :
    (t.insert x n).node? y = if y = x then some n else t.node? y := by
  rcases eq_or_ne y [] with rfl | hy
  · rw [if_neg hx.symm]
    rfl
  · have herase : (t.erase x).nodes.lookup y = if y = x then none else t.node? y := by
      have h := node?_erase (t := t) (x := x) (y := y)
      rw [node?, if_neg hy] at h
      simpa [hx] using h
    rw [node?, if_neg hy, insert, List.lookup_append, herase]
    by_cases hyx : y = x
    · simp [hyx]
    · have hbeq : (y == x) = false := by simpa using hyx
      simp [hyx, List.lookup_cons, hbeq]

theorem isInside_iff : isInside x y = true ↔ x <+: y ∧ x ≠ y := by
  rw [isInside, Bool.and_eq_true, List.isPrefixOf_iff_prefix, decide_eq_true_eq]
  constructor
  · rintro ⟨hp, hlt⟩
    exact ⟨hp, fun h => absurd hlt (by simp [h])⟩
  · rintro ⟨hp, hne⟩
    exact ⟨hp, Nat.lt_of_le_of_ne hp.length_le fun h => hne (hp.eq_of_length h)⟩

theorem isInside_append {names : List String} : isInside x (x ++ names) = true ↔ names ≠ [] := by
  rw [isInside_iff]
  constructor
  · rintro ⟨-, hne⟩ rfl
    exact hne (List.append_nil x).symm
  · intro hne
    exact ⟨List.prefix_append .., fun h => hne (List.append_right_eq_self.1 h.symm)⟩

/-- **What lies in a directory is gone when it is cleared**, and nothing else is. -/
theorem node?_clear : (t.clear x).node? y = if isInside x y then none else t.node? y := by
  rcases eq_or_ne y [] with rfl | hy
  · have hroot : isInside x [] = false := by simp [isInside]
    rw [hroot]
    rfl
  · rw [node?, if_neg hy, clear, lookup_filter fun z => !isInside x z]
    by_cases hin : isInside x y <;> simp [hin, node?, hy]

/-! ## Trees -/

/-- Whatever there is lies in a directory. -/
def IsTree (t : FileTree) : Prop := ∀ n ∈ t.nodes, t.node? n.1.dropLast = some .directory

instance (t : FileTree) : Decidable t.IsTree :=
  inferInstanceAs (Decidable (∀ n ∈ t.nodes, t.node? n.1.dropLast = some .directory))

theorem mem_of_lookup {nodes : List (Location × FileNode)} (h : nodes.lookup x = some n) :
    (x, n) ∈ nodes := by
  induction nodes with
  | nil => cases h
  | cons node nodes ih =>
    obtain ⟨z, m⟩ := node
    rcases eq_or_ne x z with rfl | hxz
    · obtain rfl : m = n := by simpa using h
      simp
    · have hbeq : (x == z) = false := by simpa using hxz
      rw [List.lookup_cons, hbeq] at h
      simp [ih h]

theorem IsTree.parent (h : t.IsTree) (hx : t.node? x = some n) :
    t.node? x.dropLast = some .directory := by
  rcases eq_or_ne x [] with rfl | hne
  · rfl
  · rw [node?, if_neg hne] at hx
    exact h _ (mem_of_lookup hx)

/-- Above whatever there is there are directories. -/
theorem IsTree.above (h : t.IsTree) (hy : t.node? y = some n) (hxy : x <+: y) (hne : x ≠ y) :
    t.node? x = some .directory := by
  induction y using List.reverseRecOn generalizing n with
  | nil => exact absurd (List.prefix_nil.1 hxy) hne
  | append_singleton y name ih =>
    have hparent := h.parent hy
    rw [List.dropLast_concat] at hparent
    rcases List.prefix_concat_iff.1 hxy with rfl | hxy
    · exact absurd rfl hne
    · by_cases hx : x = y
      · rwa [hx]
      · exact ih hparent hxy hx

end FileTree

end InterfaceGuards
