/-
  Opening syntheses: what each step made and noted when the whole made a value.
-/
import InterfaceGuards.Proofs.Result
import InterfaceGuards.Synthesis.Outcome

namespace InterfaceGuards

namespace Notes

theorem helpers_append (m n : Notes) : (m ++ n).helpers = m.helpers ++ n.helpers := rfl

theorem warnings_append (m n : Notes) : (m ++ n).warnings = m.warnings ++ n.warnings := rfl

theorem append_empty (n : Notes) : n ++ Notes.empty = n := by
  show Notes.append n .empty = n
  simp [Notes.append, Notes.empty]

theorem empty_append (n : Notes) : Notes.empty ++ n = n := by
  show Notes.append .empty n = n
  simp [Notes.append, Notes.empty]

theorem append_assoc (l m n : Notes) : l ++ m ++ n = l ++ (m ++ n) := by
  show Notes.append (Notes.append l m) n = Notes.append l (Notes.append m n)
  simp [Notes.append, List.append_assoc]

end Notes

/-- How a synthesis ends, without what is made. -/
def Outcome.void {α : Type} : Outcome α → Outcome Unit
  | .value _ => .value ()
  | .error e => .error e
  | .endless => .endless

namespace Synthesis

variable {α β : Type} {n : Notes}

/-- A synthesis with what it makes turned into something else. -/
def map (f : α → β) (x : Synthesis α) : Synthesis β where
  notes := x.notes
  outcome :=
    match x.outcome with
    | .value a => .value (f a)
    | .error e => .error e
    | .endless => .endless

/-- A synthesis without what it makes. -/
def void (x : Synthesis α) : Synthesis Unit := ⟨x.notes, x.outcome.void⟩

theorem eq_of_outcome {x : Synthesis α} {o : Outcome α} (h : x.outcome = o) :
    x = ⟨x.notes, o⟩ := by
  subst h
  rfl

theorem bind_assoc {γ : Type} (x : Synthesis α) (f : α → Synthesis β) (g : β → Synthesis γ) :
    x >>= f >>= g = x >>= fun a => f a >>= g := by
  obtain ⟨m, o⟩ := x
  show Synthesis.bind (Synthesis.bind ⟨m, o⟩ f) g =
    Synthesis.bind ⟨m, o⟩ fun a => Synthesis.bind (f a) g
  cases o with
  | error e => rfl
  | endless => rfl
  | value a =>
    cases hf : (f a).outcome with
    | value b => simp [Synthesis.bind, hf, Notes.append_assoc]
    | error e => simp [Synthesis.bind, hf]
    | endless => simp [Synthesis.bind, hf]

theorem pure_eq_value {a b : α} : (pure a : Synthesis α) = ⟨n, .value b⟩ ↔ n = .empty ∧ a = b := by
  constructor
  · intro h; cases h; exact ⟨rfl, rfl⟩
  · rintro ⟨rfl, rfl⟩; rfl

/-- **A sequence makes a value when both of its parts do**; the notes of the parts follow one
    another. -/
theorem bind_eq_value {x : Synthesis α} {f : α → Synthesis β} {b : β} :
    x >>= f = ⟨n, .value b⟩ ↔
      ∃ m a k, x = ⟨m, .value a⟩ ∧ f a = ⟨k, .value b⟩ ∧ n = m ++ k := by
  obtain ⟨m, o⟩ := x
  constructor
  · intro h
    cases o with
    | value a =>
      obtain ⟨hn, ho⟩ := Synthesis.mk.injEq .. ▸ h
      exact ⟨m, a, (f a).notes, rfl, by rw [← ho], hn.symm⟩
    | error e => cases h
    | endless => cases h
  · rintro ⟨m', a, k, hx, hf, rfl⟩
    cases hx
    simp [bind, Synthesis.bind, hf]

theorem bind_pure_eq_value {x : Synthesis α} {f : α → β} {b : β} :
    (x >>= fun a => pure (f a)) = ⟨n, .value b⟩ ↔ ∃ a, x = ⟨n, .value a⟩ ∧ f a = b := by
  rw [bind_eq_value]
  constructor
  · rintro ⟨m, a, k, hx, hpure, rfl⟩
    obtain ⟨rfl, rfl⟩ := pure_eq_value.1 hpure
    exact ⟨a, by rw [Notes.append_empty, hx], rfl⟩
  · rintro ⟨a, hx, rfl⟩
    exact ⟨n, a, .empty, hx, pure_eq_value.2 ⟨rfl, rfl⟩, (Notes.append_empty n).symm⟩

theorem bind_eq_error {x : Synthesis α} {f : α → Synthesis β} {e : SynthesisError}
    (h : x >>= f = ⟨n, .error e⟩) :
    x = ⟨n, .error e⟩ ∨ ∃ m a k, x = ⟨m, .value a⟩ ∧ f a = ⟨k, .error e⟩ := by
  obtain ⟨m, o⟩ := x
  cases o with
  | value a =>
    obtain ⟨-, ho⟩ := Synthesis.mk.injEq .. ▸ h
    exact .inr ⟨m, a, (f a).notes, rfl, by rw [← ho]⟩
  | error e' => cases h; exact .inl rfl
  | endless => cases h

theorem bind_pure_eq_error {x : Synthesis α} {f : α → β} {e : SynthesisError}
    (h : (x >>= fun a => pure (f a)) = ⟨n, .error e⟩) : x = ⟨n, .error e⟩ := by
  rcases bind_eq_error h with h | ⟨_, _, _, -, h⟩
  · exact h
  · cases h

theorem attempt_eq_value {x : Synthesis α} {r : Except SynthesisError α}
    (h : attempt x = ⟨n, .value r⟩) :
    (∃ a, r = .ok a ∧ x = ⟨n, .value a⟩) ∨ ∃ e, r = .error e ∧ x = ⟨n, .error e⟩ := by
  obtain ⟨m, o⟩ := x
  cases o with
  | value a => cases h; exact .inl ⟨a, rfl, rfl⟩
  | error e => cases h; exact .inr ⟨e, rfl, rfl⟩
  | endless => cases h

theorem attempt_ne_error {x : Synthesis α} {e : SynthesisError} : attempt x ≠ ⟨n, .error e⟩ := by
  obtain ⟨m, o⟩ := x
  cases o <;> rintro ⟨⟩

theorem ofDescribed_eq_value {x : Except ResolveError α} {a : α} :
    ofDescribed x = ⟨n, .value a⟩ ↔ n = .empty ∧ x = .ok a := by
  cases x with
  | error e => simp [ofDescribed, fail]
  | ok b =>
    constructor
    · intro h; cases h; exact ⟨rfl, rfl⟩
    · rintro ⟨rfl, h⟩; cases h; rfl

theorem ofDescribed_ok_bind (a : α) (f : α → Synthesis β) : ofDescribed (.ok a) >>= f = f a := by
  show Synthesis.bind (Synthesis.pure a) f = f a
  simp [Synthesis.bind, Synthesis.pure, Notes.empty_append]

/-- What is made of a description fails where there is none, or for itself. -/
theorem ofDescribed_bind_eq_error {x : Except ResolveError α} {f : α → Synthesis β}
    {e : SynthesisError} (h : ofDescribed x >>= f = ⟨n, .error e⟩) :
    (∃ r, x = .error r ∧ n = .empty ∧ e = .resolve r) ∨ ∃ a, x = .ok a ∧ f a = ⟨n, .error e⟩ := by
  cases x with
  | error r => cases h; exact .inl ⟨r, rfl, rfl, rfl⟩
  | ok a => exact .inr ⟨a, rfl, by rwa [ofDescribed_ok_bind] at h⟩

theorem require_eq_value {helper : Script.Helper} {u : Unit} :
    require helper = ⟨n, .value u⟩ ↔ n = ⟨[helper], []⟩ := by
  simp [require, note, eq_comm]

theorem require_bind_eq_error {helper : Script.Helper} {f : Unit → Synthesis β}
    {e : SynthesisError} (h : require helper >>= f = ⟨n, .error e⟩) :
    ∃ k, f () = ⟨k, .error e⟩ := by
  rcases bind_eq_error h with h | ⟨_, _, k, -, h⟩
  · cases h
  · exact ⟨k, h⟩

theorem warn_eq_value {w : Diagnostic} {u : Unit} :
    warn w = ⟨n, .value u⟩ ↔ n = ⟨[], [w]⟩ := by
  simp [warn, note, eq_comm]

theorem fail_ne_value {e : SynthesisError} {a : α} : (fail e : Synthesis α) ≠ ⟨n, .value a⟩ := by
  simp [fail]

theorem endless_ne_value {a : α} : (endless : Synthesis α) ≠ ⟨n, .value a⟩ := by
  simp [endless]

end Synthesis

end InterfaceGuards
