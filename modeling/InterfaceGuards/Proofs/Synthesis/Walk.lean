/-
  Walking through a type with a context that is changed on the way and changed back.

  * `Walk.State`: the scope at which work stands, what is needed and was found so far, and the
    streams that code is written to.
  * `Walk`: work on a state that comes to a value, an error or no end; what it did to the state
    before an error stays.
  * `Walk.expanding`, `Walk.within`: a name or a member is put on its stack, and whatever comes of
    the work done then, the latest is taken off again.
  * `Walk.Follows`: a walk does what writing does in the scope where it starts, and comes back to
    that scope; `Follows.expanding`, `Follows.within`: so it does inside a name and a member.
-/
import InterfaceGuards.Proofs.Synthesis.Writing
import InterfaceGuards.Synthesis.Session

namespace InterfaceGuards

open Script (Helper)

/-- What walks share and change: the scope at which work stands, what is needed and was found so
    far, and the streams that code is written to. -/
structure Walk.State where
  scope : Scope
  requirements : Requirements
  diagnostics : List Diagnostic
  streams : Code.Streams
deriving Repr

/-- Work on a state: what comes of it, and the state afterwards. -/
structure Walk (α : Type) where
  run : Walk.State → Outcome α × Walk.State

namespace Walk

variable {α β : Type}

/-- Takes over what was noted, and the streams that were written to. -/
def State.took (s : State) (notes : Notes) (streams : Code.Streams) : State :=
  { s with
    requirements := notes.helpers.foldl Requirements.requireHelper s.requirements
    diagnostics := s.diagnostics ++ notes.warnings
    streams := streams }

/-- Nothing done. -/
protected def pure (a : α) : Walk α := ⟨fun s => (.value a, s)⟩

/-- One thing done after another; an error ends it. -/
protected def bind (x : Walk α) (f : α → Walk β) : Walk β := ⟨fun s =>
  match x.run s with
  | (.value a, t) => (f a).run t
  | (.error e, t) => (.error e, t)
  | (.endless, t) => (.endless, t)⟩

instance : Monad Walk where
  pure := Walk.pure
  bind := Walk.bind

/-- Something written, wherever work stands. -/
def lift (x : Writing α) : Walk α := ⟨fun s =>
  let (made, w) := x.run s.streams
  (made.outcome, s.took made.notes w)⟩

/-- An error. -/
def fail (e : SynthesisError) : Walk α := lift (Writing.lift (Synthesis.fail e))

/-- Work that has no end. -/
def endless : Walk α := lift (Writing.lift Synthesis.endless)

/-- Appends a text as it is. -/
def append (i : Nat) (text : String) : Walk Unit := lift (Writing.append i text)

/-- Appends a text after the indentation. -/
def write (i : Nat) (text : String) : Walk Unit := lift (Writing.write i text)

/-- A helper is needed. -/
def require (helper : Helper) : Walk Unit := lift (Writing.lift (Synthesis.require helper))

/-- Raises a warning where work stands. -/
def warn (phase message : String) : Walk Unit := ⟨fun s =>
  (.value (), { s with diagnostics := s.diagnostics ++ [s.scope.warning phase message] })⟩

/-- The description of a type. -/
def describe (type : TypeExpr) : Walk Description := ⟨fun s =>
  match s.scope.catalog.describe type with
  | .ok d => (.value d, s)
  | .error e => (.error (.resolve e), s)⟩

/-- One of two walks, by the scope at which work stands. -/
def either (test : Scope → Bool) (x y : Walk α) : Walk α := ⟨fun s =>
  if test s.scope then x.run s else y.run s⟩

/-- The result, an error included. -/
def attempt (x : Walk α) : Walk (Except SynthesisError α) := ⟨fun s =>
  match x.run s with
  | (.value a, t) => (.value (.ok a), t)
  | (.error e, t) => (.value (.error e), t)
  | (.endless, t) => (.endless, t)⟩

/-- Something done while a name is being expanded: the name is put on the stack, and then the latest
    name on the stack is taken off. -/
def expanding (name : String) (body : Walk α) : Walk α := ⟨fun s =>
  let (outcome, t) := body.run { s with scope := s.scope.expand name }
  (outcome, { t with scope := { t.scope with expanding := t.scope.expanding.tail } })⟩

/-- Something done inside a member: the member is put on the path, and then the latest member on the
    path is taken off. -/
def within (segment : String) (body : Walk α) : Walk α := ⟨fun s =>
  let (outcome, t) := body.run { s with scope := s.scope.within segment }
  (outcome, { t with scope := { t.scope with path := t.scope.path.tail } })⟩

/-- Something done one level deeper. -/
def indented (body : Walk α) : Walk α := ⟨fun s =>
  let (outcome, t) := body.run { s with streams := s.streams.enter }
  (outcome, { t with streams := t.streams.leave })⟩

/-- Something done between two lines, one level deeper; the second is written whatever comes of
    it. -/
def block (i : Nat) (opening : String) (body : Walk α) (closing : String) : Walk α := ⟨fun s =>
  let (outcome, t) := (indented body).run { s with streams := s.streams.write i opening }
  (outcome, { t with streams := t.streams.write i closing })⟩

/-! ## States -/

theorem State.took_took (s : State) (m n : Notes) (w w' : Code.Streams) :
    (s.took m w).took n w' = s.took (m ++ n) w' := by
  simp [took, Notes.helpers_append, Notes.warnings_append, List.foldl_append, List.append_assoc]

theorem State.took_empty (s : State) (w : Code.Streams) :
    s.took .empty w = { s with streams := w } := by
  simp [took, Notes.empty]

/-! ## Following -/

/-- From every state the walk does what writing does in the scope at which work stands: it comes to
    the same, and what it leaves behind is what was noted and what was written.  In particular it
    comes back to that scope. -/
def Follows (x : Walk α) (y : Scope → Writing α) : Prop :=
  ∀ s : State, x.run s = (lift (y s.scope)).run s

section
variable {x x' : Walk α} {y y' : Scope → Writing α}

theorem run_lift {z : Writing α} {s : State} {made : Synthesis α} {w : Code.Streams}
    (h : z.run s.streams = (made, w)) :
    (lift z).run s = (made.outcome, s.took made.notes w) := by
  show ((z.run s.streams).1.outcome, s.took (z.run s.streams).1.notes (z.run s.streams).2) = _
  rw [h]

theorem Follows.run_eq (h : Follows x y) {s : State} {made : Synthesis α} {w : Code.Streams}
    (hy : (y s.scope).run s.streams = (made, w)) :
    x.run s = (made.outcome, s.took made.notes w) := by
  rw [h s, run_lift hy]

theorem follows_lift (z : Writing α) : Follows (lift z) fun _ => z := fun _ => rfl

theorem follows_pure (a : α) : Follows (pure a) fun _ => pure a := by
  intro s
  show (Outcome.value a, s) = (Outcome.value a, s.took .empty s.streams)
  rw [State.took_empty]

theorem follows_warn (phase message : String) :
    Follows (warn phase message)
      fun scope => Writing.lift (Synthesis.warn (scope.warning phase message)) := fun _ => rfl

theorem follows_describe (type : TypeExpr) :
    Follows (describe type)
      fun scope => Writing.lift (Synthesis.ofDescribed (scope.catalog.describe type)) := by
  intro s
  show (describe type).run s =
    ((Synthesis.ofDescribed (s.scope.catalog.describe type)).outcome,
      s.took (Synthesis.ofDescribed (s.scope.catalog.describe type)).notes s.streams)
  simp only [describe]
  cases s.scope.catalog.describe type with
  | ok d => exact congrArg (Prod.mk _) (State.took_empty s s.streams).symm
  | error e => exact congrArg (Prod.mk _) (State.took_empty s s.streams).symm

/-- **One walk after another** comes back twice. -/
theorem Follows.bind {f : α → Walk β} {g : α → Scope → Writing β} (hx : Follows x y)
    (hf : ∀ a, Follows (f a) (g a)) :
    Follows (x >>= f) fun scope => y scope >>= fun a => g a scope := by
  intro s
  rcases hy : (y s.scope).run s.streams with ⟨⟨n, o⟩, w⟩
  show (Walk.bind x f).run s = _
  unfold Walk.bind
  simp only [hx.run_eq hy]
  cases o with
  | value a =>
    rcases hg : (g a s.scope).run w with ⟨⟨m, o'⟩, w'⟩
    have hboth := Writing.bind_of_value (f := fun a => g a s.scope) hy
    rw [hg] at hboth
    rw [run_lift hboth, ← State.took_took s n m w w']
    exact (hf a).run_eq (s := s.took n w) hg
  | error e => rw [run_lift (Writing.bind_of_error hy)]
  | endless => rw [run_lift (Writing.bind_of_endless hy)]

theorem Follows.attempt (h : Follows x y) :
    Follows (attempt x) fun scope => Writing.attempt (y scope) := by
  intro s
  rcases hy : (y s.scope).run s.streams with ⟨⟨n, o⟩, w⟩
  have htried := Writing.run_attempt (y s.scope) s.streams
  rw [hy] at htried
  rw [run_lift htried, Walk.attempt]
  simp only [h.run_eq hy]
  cases o <;> rfl

theorem Follows.either (test : Scope → Bool) (hx : Follows x y) (hx' : Follows x' y') :
    Follows (either test x x') fun scope => if test scope then y scope else y' scope := by
  intro s
  unfold Walk.either
  dsimp only
  split_ifs
  · exact hx s
  · exact hx' s

/-- **A name put on the stack is taken off again**, whatever comes of the work in between: that work
    comes back to the scope with the name on top. -/
theorem Follows.expanding (h : Follows x y) (name : String) :
    Follows (expanding name x) fun scope => y (scope.expand name) := by
  intro s
  rcases hy : (y (s.scope.expand name)).run s.streams with ⟨made, w⟩
  have hrun := h.run_eq (s := { s with scope := s.scope.expand name }) hy
  rw [run_lift hy, Walk.expanding]
  simp only [hrun]
  rfl

/-- **A member put on the path is taken off again**, whatever comes of the work in between. -/
theorem Follows.within (h : Follows x y) (segment : String) :
    Follows (within segment x) fun scope => y (scope.within segment) := by
  intro s
  rcases hy : (y (s.scope.within segment)).run s.streams with ⟨made, w⟩
  have hrun := h.run_eq (s := { s with scope := s.scope.within segment }) hy
  rw [run_lift hy, Walk.within]
  simp only [hrun]
  rfl

theorem Follows.indented (h : Follows x y) :
    Follows (indented x) fun scope => Writing.indented (y scope) := by
  intro s
  rcases hy : (y s.scope).run s.streams.enter with ⟨made, w⟩
  have hrun := h.run_eq (s := { s with streams := s.streams.enter }) hy
  have hdeeper := Writing.run_indented (y s.scope) s.streams
  rw [hy] at hdeeper
  rw [run_lift hdeeper, Walk.indented]
  simp only [hrun]
  rfl

theorem Follows.block (h : Follows x y) (i : Nat) (opening closing : String) :
    Follows (block i opening x closing)
      fun scope => Writing.block i opening (y scope) closing := by
  intro s
  have hrun := h.indented { s with streams := s.streams.write i opening }
  rw [run_lift (Writing.run_block ..), Walk.block]
  simp only [hrun]
  rfl

end

end Walk

end InterfaceGuards
