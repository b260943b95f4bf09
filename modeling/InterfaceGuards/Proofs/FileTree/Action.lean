/-
  Running actions on files.

  * `FileTree.run`: what an action gives in a tree, and the tree after it.
  * `run_bind`: a sequence goes on where its first part ended, unless that failed.
  * `run_write`, `run_enterOrMake`, `run_removeAll`, `run_makeDirectories`: the actions as functions
    of the tree that they find.
  * `run_orFail`: an action as a part of a run does the same and words its errors differently.
-/
import InterfaceGuards.Run.Generate

namespace InterfaceGuards

namespace FileTree

/-! ## Sequences -/

section Sequence

variable {ε α β : Type} {x : α} {e : ε}

/-- What an action gives in a tree, and the tree after it. -/
def run (t : FileTree) (a : ExceptT ε (StateM FileTree) α) : Except ε α × FileTree := a.run.run t

variable (t : FileTree)

theorem run_pure : t.run (pure x : ExceptT ε (StateM FileTree) α) = (.ok x, t) := rfl

theorem run_throw : t.run (throw e : ExceptT ε (StateM FileTree) α) = (.error e, t) := rfl

theorem run_get : t.run (get : ExceptT ε (StateM FileTree) FileTree) = (.ok t, t) := rfl

theorem run_set (t' : FileTree) :
    t.run (set t' : ExceptT ε (StateM FileTree) PUnit) = (.ok (), t') := rfl

theorem run_lift (r : Except ε α) :
    t.run (liftM r : ExceptT ε (StateM FileTree) α) = (r, t) := rfl

/-- **A sequence goes on where its first part ended**, unless that failed. -/
theorem run_bind (a : ExceptT ε (StateM FileTree) α) (f : α → ExceptT ε (StateM FileTree) β) :
    t.run (a >>= f) = match t.run a with
      | (.ok x, t') => t'.run (f x)
      | (.error e, t') => (.error e, t') := by
  simp only [run, ExceptT.run_bind, StateT.run_bind]
  rcases a.run.run t with ⟨_ | _, _⟩ <;> rfl

variable {t t' : FileTree} {y : β} {a : ExceptT ε (StateM FileTree) α}
  {f : α → ExceptT ε (StateM FileTree) β}

theorem run_bind_eq_ok : t.run (a >>= f) = (.ok y, t') ↔
    ∃ x t₁, t.run a = (.ok x, t₁) ∧ t₁.run (f x) = (.ok y, t') := by
  rw [run_bind]
  rcases t.run a with ⟨_ | x, t₁⟩
  · simp
  · constructor
    · intro h
      exact ⟨x, t₁, rfl, h⟩
    · rintro ⟨_, _, ⟨⟩, h⟩
      exact h

theorem run_bind_eq_error : t.run (a >>= f) = (.error e, t') ↔
    t.run a = (.error e, t') ∨
      ∃ x t₁, t.run a = (.ok x, t₁) ∧ t₁.run (f x) = (.error e, t') := by
  rw [run_bind]
  rcases t.run a with ⟨_ | x, t₁⟩
  · simp
  · constructor
    · intro h
      exact .inr ⟨x, t₁, rfl, h⟩
    · rintro (⟨⟨⟩⟩ | ⟨_, _, ⟨⟩, h⟩)
      exact h

end Sequence

/-! ## The actions -/

variable (t : FileTree) (p : Path)

theorem run_write (text : String) : t.run (write p text) =
    match t.locate p with
    | .error e => (.error e, t)
    | .ok place =>
      match t.node? place with
      | some .directory => (.error .isDirectory, t)
      | _ => (.ok (), t.insert place (.file text)) := by
  simp only [write, run_bind, run_get, run_lift]
  rcases t.locate p with e | place
  · rfl
  · rcases hn : t.node? place with _ | _ | _ <;> simp only [hn, run_set, run_throw]

theorem run_enterOrMake (here : Location) (step : Path.Component) :
    t.run (enterOrMake here step) =
      match t.enter here step with
      | .error e => (.error e, t)
      | .ok place =>
        match t.node? place with
        | none => (.ok place, t.insert place .directory)
        | some .directory => (.ok place, t)
        | some (.file _) => (.error .alreadyExists, t) := by
  simp only [enterOrMake, run_bind, run_get, run_lift]
  rcases t.enter here step with e | place
  · rfl
  · rcases hn : t.node? place with _ | _ | _ <;>
      simp only [hn, run_bind, run_set, run_throw, run_pure]

theorem run_removeAll : t.run (removeAll p) =
    match t.locate p with
    | .error e => (.error e, t)
    | .ok place =>
      match t.node? place with
      | none => (.error .notFound, t)
      | some (.file _) => (.error .notDirectory, t)
      | some .directory =>
        (.ok (), match (t.clear place).locate p with
          | .ok _ => (t.clear place).erase place
          | .error _ => t.clear place) := by
  simp only [removeAll, run_bind, run_get, run_lift]
  rcases t.locate p with e | place
  · rfl
  · rcases hn : t.node? place with _ | _ | _
    · simp only [hn, run_throw]
    · rcases hl : (t.clear place).locate p with _ | _ <;> simp only [hn, hl, run_set]
    · simp only [hn, run_throw]

/-- The errors that are found before any directory is made. -/
def FileError.IsEarly (e : FileError) : Prop := e = .invalidName ∨ e = .notDirectory

variable {t p}

theorem run_makeDirectories_of_isEarly {e : FileError} (h : t.locate p = .error e)
    (he : FileError.IsEarly e) : t.run (makeDirectories p) = (.error e, t) := by
  simp only [makeDirectories, run_bind, run_get, h]
  rcases he with rfl | rfl <;> simp only [run_throw]

theorem run_makeDirectories (h : ∀ e, t.locate p = .error e → ¬FileError.IsEarly e) :
    t.run (makeDirectories p) =
      t.run ((stepsOf p).foldlM enterOrMake [] >>= fun _ => pure ()) := by
  simp only [makeDirectories]
  rw [run_bind, run_get]
  rcases hl : t.locate p with e | place
  · have he := h e hl
    cases e with
    | invalidName => exact absurd (.inl rfl) he
    | notDirectory => exact absurd (.inr rfl) he
    | _ => simp only [hl]
  · simp only [hl]

theorem run_orFail {α : Type} (a : FileAction α) (error : FileError → RunError)
    (t : FileTree) : t.run (a.orFail error) = match t.run a with
      | (.ok x, t') => (.ok x, t')
      | (.error e, t') => (.error (error e), t') := by
  have hlift : t.run (liftM a.run : RunAction (Except FileError α)) =
      (.ok (t.run a).1, (t.run a).2) := rfl
  unfold FileAction.orFail
  rw [run_bind, hlift]
  rcases t.run a with ⟨_ | _, _⟩ <;> simp only [run_pure, run_throw]

section OrFail

variable {α : Type} {a : FileAction α} {error : FileError → RunError} {x : α} {t' : FileTree}

theorem run_orFail_eq_ok : t.run (a.orFail error) = (.ok x, t') ↔ t.run a = (.ok x, t') := by
  rw [run_orFail]
  rcases t.run a with ⟨_ | _, _⟩ <;> simp

theorem run_orFail_eq_error {e : RunError} :
    t.run (a.orFail error) = (.error e, t') ↔ ∃ cause, t.run a = (.error cause, t') ∧
      error cause = e := by
  rw [run_orFail]
  rcases t.run a with ⟨cause | _, t₁⟩
  · constructor
    · rintro ⟨⟩
      exact ⟨cause, rfl, rfl⟩
    · rintro ⟨_, ⟨⟩, rfl⟩
      rfl
  · simp

end OrFail

end FileTree

end InterfaceGuards
