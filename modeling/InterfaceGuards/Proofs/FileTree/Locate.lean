/-
  Following paths in a tree.

  * `Component.Fits`, `Path.Fits`: steps and paths that are not refused for how they are spelled.
  * `enter_eq_ok`, `foldlM_enter_eq_ok`: steps are taken from directories to where they lead.
  * `locate_eq_ok`: a path is followed exactly when all places before its last are directories.
  * `locate_eq_error`: where following a path ends too early.
  * `read_eq_ok`: a path that can be read leads to a file.
-/
import InterfaceGuards.Proofs.FileTree.Node
import InterfaceGuards.Proofs.Path.Place
import InterfaceGuards.Proofs.Result

namespace InterfaceGuards

open FileTree (stepsOf longestName)
open Path.Component (follow passed)

/-- Not a step to too long a name. -/
def Path.Component.Fits : Path.Component → Prop
  | .name text => text.utf8ByteSize ≤ longestName
  | _ => True

/-- Spelled without a character that no name can have, and without too long a name. -/
def Path.Fits (p : Path) : Prop := '\x00' ∉ p.text.toList ∧ ∀ c ∈ stepsOf p, c.Fits

instance (c : Path.Component) : Decidable c.Fits :=
  match c with
  | .name text => inferInstanceAs (Decidable (text.utf8ByteSize ≤ longestName))
  | .root | .current | .parent => inferInstanceAs (Decidable True)

instance (p : Path) : Decidable p.Fits := inferInstanceAs (Decidable (_ ∧ _))

namespace FileTree

variable {t : FileTree} {p : Path} {here x y : Location} {c : Path.Component}
  {steps : List Path.Component} {e : FileError} {text : String}

/-- A step is taken from a directory to where it leads. -/
theorem enter_eq_ok :
    t.enter here c = .ok x ↔ t.node? here = some .directory ∧ c.Fits ∧ follow here c = x := by
  unfold enter
  rcases t.node? here with _ | _ | _
  · simp
  · cases c with
    | name text =>
      by_cases hlong : longestName < text.utf8ByteSize
      · simp [hlong, Path.Component.Fits, Nat.not_le.2 hlong]
      · simp [hlong, Path.Component.Fits, follow, Nat.not_lt.1 hlong]
    | _ => simp [Path.Component.Fits, follow]
  · simp

/-- Why a step is not taken. -/
theorem enter_eq_error (h : t.enter here c = .error e) :
    (e = .notFound ∧ t.node? here = none) ∨
      (e = .notDirectory ∧ ∃ text, t.node? here = some (.file text)) ∨ ¬c.Fits := by
  unfold enter at h
  rcases hn : t.node? here with _ | _ | text
  · rw [hn] at h
    cases h
    exact .inl ⟨rfl, rfl⟩
  · rw [hn] at h
    cases c with
    | name text =>
      simp only at h
      split_ifs at h with hlong
      exact .inr (.inr (Nat.not_le.2 hlong))
    | _ => cases h
  · rw [hn] at h
    cases h
    exact .inr (.inl ⟨rfl, text, rfl⟩)

/-- Steps are taken exactly when all places before the last are directories. -/
theorem foldlM_enter_eq_ok (hne : steps ≠ []) :
    steps.foldlM t.enter here = .ok x ↔ (∀ c ∈ steps, c.Fits) ∧
      (∀ y ∈ passed here steps.dropLast, t.node? y = some .directory) ∧
      steps.foldl follow here = x := by
  induction steps generalizing here with
  | nil => exact absurd rfl hne
  | cons c steps ih =>
    rw [List.foldlM_cons, bind_eq_ok]
    rcases eq_or_ne steps [] with rfl | hsteps
    · simp only [List.foldlM_nil, pure, Except.pure, Except.ok.injEq, exists_eq_right,
        enter_eq_ok]
      simp [passed, and_left_comm]
    · rw [List.dropLast_cons_of_ne_nil hsteps, Path.Component.passed_cons]
      simp only [enter_eq_ok, ih hsteps, List.mem_cons, forall_eq_or_imp, List.foldl_cons]
      constructor
      · rintro ⟨_, ⟨hdir, hc, rfl⟩, hfits, hdirs, hx⟩
        exact ⟨⟨hc, hfits⟩, ⟨hdir, hdirs⟩, hx⟩
      · rintro ⟨⟨hc, hfits⟩, ⟨hdir, hdirs⟩, hx⟩
        exact ⟨_, ⟨hdir, hc, rfl⟩, hfits, hdirs, hx⟩

/-- Steps that are not taken to the end are taken to one that is not. -/
theorem foldlM_enter_eq_error (h : steps.foldlM t.enter here = .error e) :
    ∃ taken c rest, steps = taken ++ c :: rest ∧
      t.enter (taken.foldl follow here) c = .error e ∧
      ∀ y ∈ passed here taken, y = taken.foldl follow here ∨ t.node? y = some .directory := by
  induction steps generalizing here with
  | nil => cases h
  | cons c steps ih =>
    rw [List.foldlM_cons, bind_eq_error] at h
    rcases h with h | ⟨x, hx, h⟩
    · refine ⟨[], c, steps, rfl, h, fun y hy => .inl ?_⟩
      simpa [passed] using hy
    · obtain ⟨hdir, -, rfl⟩ := enter_eq_ok.1 hx
      obtain ⟨taken, d, rest, rfl, hd, hdirs⟩ := ih h
      refine ⟨c :: taken, d, rest, rfl, hd, fun y hy => ?_⟩
      rw [Path.Component.passed_cons, List.mem_cons] at hy
      rcases hy with rfl | hy
      · exact .inr hdir
      · exact hdirs y hy

theorem stepsOf_ne_nil (p : Path) : stepsOf p ≠ [] := by
  simp [stepsOf, Text.splitOn_ne_nil]

/-- **A path is followed exactly when all places before its last are directories.** -/
theorem locate_eq_ok : t.locate p = .ok x ↔ p.Fits ∧
    (∀ y ∈ passed [] (stepsOf p).dropLast, t.node? y = some .directory) ∧ p.place = x := by
  unfold locate Path.Fits
  by_cases hnul : '\x00' ∈ p.text.toList
  · simp [hnul]
  · rw [if_neg (by simpa using hnul), foldlM_enter_eq_ok (stepsOf_ne_nil p)]
    simp [hnul, Path.place]

/-- **A path that fits is not followed only where nothing or a file is on the way.** -/
theorem locate_eq_error (hfits : p.Fits) (h : t.locate p = .error e) :
    ∃ taken c rest, stepsOf p = taken ++ c :: rest ∧
      (∀ y ∈ passed [] taken, y = taken.foldl follow [] ∨ t.node? y = some .directory) ∧
      (e = .notFound ∧ t.node? (taken.foldl follow []) = none ∨
        e = .notDirectory ∧ ∃ text, t.node? (taken.foldl follow []) = some (.file text)) := by
  rw [locate, if_neg (by simpa using hfits.1)] at h
  obtain ⟨taken, c, rest, hsteps, henter, hdirs⟩ := foldlM_enter_eq_error h
  refine ⟨taken, c, rest, hsteps, hdirs, ?_⟩
  rcases enter_eq_error henter with hnone | hfile | hlong
  · exact .inl hnone
  · exact .inr hfile
  · exact absurd (hfits.2 c (by simp [hsteps])) hlong

/-- What is passed is the place of the path or is passed before it. -/
theorem mem_way_iff_dropLast :
    y ∈ p.way ↔ y ∈ passed [] (stepsOf p).dropLast ∨ y = p.place := by
  have hsplit := List.dropLast_append_getLast (stepsOf_ne_nil p)
  unfold Path.way Path.place
  rw [← hsplit]
  rw [Path.Component.mem_passed_append, List.dropLast_concat, Path.Component.passed_cons,
    List.mem_cons, List.foldl_append]
  constructor
  · rintro (h | rfl | h)
    · exact .inl h
    · exact .inl Path.Component.foldl_mem_passed
    · exact .inr (by simpa [passed] using h)
  · rintro (h | rfl)
    · exact .inl h
    · exact .inr (.inr (by simp [passed]))

/-- **A path that can be read leads through directories to a file.** -/
theorem read_eq_ok : t.read p = .ok text ↔
    t.locate p = .ok p.place ∧ t.node? p.place = some (.file text) := by
  unfold read
  rw [bind_eq_ok]
  constructor
  · rintro ⟨x, hx, h⟩
    obtain ⟨-, -, rfl⟩ := locate_eq_ok.1 hx
    refine ⟨hx, ?_⟩
    rcases hn : t.node? p.place with _ | _ | other <;> rw [hn] at h <;> cases h
    rfl
  · rintro ⟨hx, h⟩
    exact ⟨_, hx, by rw [h]⟩

end FileTree

end InterfaceGuards
