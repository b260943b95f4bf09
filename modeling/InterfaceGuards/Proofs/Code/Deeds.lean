/-
  What programs do to streams, and what is held and taken for it.

  * `Deed`: what is done to the buffers of streams, one thing after another; a line says how deep it
    stands.
  * `WriteStep.deeds`: what a step does, as deep as it is nested; no depth is kept for it.
  * `step_eq`, `run_eq`: steps come to what they do, whatever the depth that they change and restore.
  * `Addressed`: only streams are addressed that are there.
  * `getElem?_on`: a deed leaves the buffers of all streams but its own as they are.
  * `taken_append_held`, `exists_initially`: what is taken of a stream and what it holds at last are
    what it held at first and what was written to it.
-/
import InterfaceGuards.Code.Stream

namespace InterfaceGuards.Code

/-- What a stream holds. -/
def held (buffers : List String) (j : Nat) : String := buffers[j]?.getD ""

/-- What is done to the buffers of streams. -/
inductive Deed where
  /-- A piece is put behind what a stream holds. -/
  | put (stream : Nat) (piece : Piece)
  /-- What a stream holds is taken; the step that did it, inside of so many bodies, is at its end. -/
  | take (stream level : Nat)
  /-- An empty stream is derived. -/
  | child (stream : Nat)
  /-- A stream is derived that holds what another one holds. -/
  | copy (stream : Nat)
  /-- A step inside of so many bodies is at its end. -/
  | finish (stream level : Nat)
deriving DecidableEq, Repr

/-- What is left when a step is at its end: the stream that it addressed, the number of bodies around
    it, what all streams hold, and what the step took. -/
structure Ending where
  stream : Nat
  level : Nat
  buffers : List String
  taken : Option String
deriving DecidableEq, Repr

/-- What is seen through the addressed stream. -/
def Ending.record (e : Ending) : WriteRecord :=
  ⟨held e.buffers e.stream, e.level, e.taken⟩

namespace Deed

/-- The stream that is addressed. -/
def stream : Deed → Nat
  | .put i _ => i
  | .take i _ => i
  | .child i => i
  | .copy i => i
  | .finish i _ => i

/-- The number of streams that are derived. -/
def derives : Deed → Nat
  | .child _ => 1
  | .copy _ => 1
  | _ => 0

/-- The buffers afterwards. -/
def on (indent : Indent) (buffers : List String) : Deed → List String
  | .put i piece => buffers.modify i (· ++ piece.text indent)
  | .take i _ => buffers.modify i fun _ => ""
  | .child _ => buffers ++ [""]
  | .copy i => buffers ++ [held buffers i]
  | .finish _ _ => buffers

/-- The end of a step, if it comes with this deed. -/
def ending? (buffers : List String) : Deed → Option Ending
  | .take i level => some ⟨i, level, buffers.modify i fun _ => "", some (held buffers i)⟩
  | .finish i level => some ⟨i, level, buffers, none⟩
  | _ => none

/-- The text that is written to a stream, if any is. -/
def text? (indent : Indent) (j : Nat) : Deed → Option String
  | .put i piece => if i = j then some (piece.text indent) else none
  | _ => none

end Deed

/-- The buffers after some deeds. -/
def doAll (indent : Indent) (deeds : List Deed) (buffers : List String) : List String :=
  deeds.foldl (Deed.on indent) buffers

/-- The ends of steps, in order. -/
def endings (indent : Indent) : List String → List Deed → List Ending
  | _, [] => []
  | buffers, d :: deeds => (d.ending? buffers).toList ++ endings indent (d.on indent buffers) deeds

/-! ## Doing one thing after another -/

section
variable {indent : Indent} {buffers : List String} {d : Deed} {deeds more : List Deed}

theorem doAll_cons : doAll indent (d :: deeds) buffers = doAll indent deeds (d.on indent buffers) :=
  rfl

theorem doAll_append :
    doAll indent (deeds ++ more) buffers = doAll indent more (doAll indent deeds buffers) :=
  List.foldl_append

theorem endings_append : endings indent buffers (deeds ++ more) =
    endings indent buffers deeds ++ endings indent (doAll indent deeds buffers) more := by
  induction deeds generalizing buffers with
  | nil => rfl
  | cons d deeds ih => rw [List.cons_append, endings, ih, endings, doAll_cons, List.append_assoc]

end

/-! ## What steps do -/

mutual

/-- What a step does inside of so many bodies. -/
def WriteStep.deeds (level : Nat) : WriteStep → List Deed
  | .write i text => [.put i (.line level text), .finish i level]
  | .append i text => [.put i (.raw text), .finish i level]
  | .drain i => [.take i level]
  | .child i => [.child i, .finish i level]
  | .copy i => [.copy i, .finish i level]
  | .block i opening closing body =>
    .put i (.line level opening) :: (deedsOf (level + 1) body ++
      [.put i (.line level closing), .finish i level])
  | .indented i body => deedsOf (level + 1) body ++ [.finish i level]

/-- What some steps do, one after the other. -/
def deedsOf (level : Nat) : List WriteStep → List Deed
  | [] => []
  | first :: rest => first.deeds level ++ deedsOf level rest

end

/-- Standing inside of so many bodies of a program. -/
inductive Within : Nat → WriteStep → List WriteStep → Prop
  | here {step : WriteStep} {steps : List WriteStep} (h : step ∈ steps) : Within 0 step steps
  | block {k i : Nat} {opening closing : String} {step : WriteStep} {body steps : List WriteStep}
      (hbody : .block i opening closing body ∈ steps) (h : Within k step body) :
      Within (k + 1) step steps
  | indented {k i : Nat} {step : WriteStep} {body steps : List WriteStep}
      (hbody : .indented i body ∈ steps) (h : Within k step body) : Within (k + 1) step steps

theorem deeds_isInfix {step : WriteStep} {steps : List WriteStep} (h : step ∈ steps) (level : Nat) :
    step.deeds level <:+: deedsOf level steps := by
  induction steps with
  | nil => cases h
  | cons first rest ih =>
    rcases List.mem_cons.1 h with rfl | h
    · exact (List.prefix_append _ _).isInfix
    · exact (ih h).trans (List.suffix_append _ _).isInfix

/-- **What a step does inside of so many bodies** is a part of what the program does. -/
theorem Within.isInfix {k : Nat} {step : WriteStep} {steps : List WriteStep}
    (h : Within k step steps) (level : Nat) :
    step.deeds (level + k) <:+: deedsOf level steps := by
  induction h generalizing level with
  | here h => exact deeds_isInfix h level
  | block hbody _ ih =>
    have hinner := ih (level + 1)
    rw [Nat.add_right_comm, Nat.add_assoc] at hinner
    exact hinner.trans ((List.infix_append [_] _ _).trans (deeds_isInfix hbody level))
  | indented hbody _ ih =>
    have hinner := ih (level + 1)
    rw [Nat.add_right_comm, Nat.add_assoc] at hinner
    exact hinner.trans ((List.prefix_append _ _).isInfix.trans (deeds_isInfix hbody level))

namespace Streams

section
variable (s : Streams) (i : Nat) (opening closing : String) (first : WriteStep)
  (body rest : List WriteStep)

theorem step_block : s.step (.block i opening closing body) =
    (((s.write i opening).enter.run body).1.leave.write i closing,
      ((s.write i opening).enter.run body).2 ++
        [(((s.write i opening).enter.run body).1.leave.write i closing).record i none]) := rfl

theorem step_indented : s.step (.indented i body) =
    ((s.enter.run body).1.leave,
      (s.enter.run body).2 ++ [((s.enter.run body).1.leave).record i none]) := rfl

theorem run_cons : s.run (first :: rest) =
    (((s.step first).1.run rest).1, (s.step first).2 ++ ((s.step first).1.run rest).2) := rfl

end

mutual

/-- **A step comes to what it does**: the depth afterwards is the one before. -/
theorem step_eq : ∀ (step : WriteStep) (s : Streams), s.step step =
    ({ s with buffers := doAll s.indent (step.deeds s.depth) s.buffers },
      (endings s.indent s.buffers (step.deeds s.depth)).map Ending.record)
  | .write _ _, s | .append _ _, s | .child _, s | .copy _, s | .drain _, s => rfl
  | .block i opening closing body, s => by
    -- The body leaves the depth as it finds it, so that the step back never stops at zero.
    rw [step_block, run_eq body]
    simp only [WriteStep.deeds, doAll_cons, doAll_append, endings, endings_append, List.map_append]
    rfl
  | .indented i body, s => by
    rw [step_indented, run_eq body]
    simp only [WriteStep.deeds, doAll_append, endings_append, List.map_append]
    rfl

/-- **Steps come to what they do**, one after the other. -/
theorem run_eq : ∀ (steps : List WriteStep) (s : Streams), s.run steps =
    ({ s with buffers := doAll s.indent (deedsOf s.depth steps) s.buffers },
      (endings s.indent s.buffers (deedsOf s.depth steps)).map Ending.record)
  | [], s => rfl
  | first :: rest, s => by
    rw [run_cons, step_eq first, run_eq rest, deedsOf, doAll_append, endings_append,
      List.map_append]

end

end Streams

/-! ## Streams that are there -/

mutual

/-- The number of streams after a step, if it addresses only streams that are there. -/
def WriteStep.streams? (n : Nat) : WriteStep → Option Nat
  | .write i _ => if i < n then some n else none
  | .append i _ => if i < n then some n else none
  | .drain i => if i < n then some n else none
  | .child i => if i < n then some (n + 1) else none
  | .copy i => if i < n then some (n + 1) else none
  | .block i _ _ body => if i < n then streamsAfter? n body else none
  | .indented i body => if i < n then streamsAfter? n body else none

/-- The number of streams after some steps, if all of them address only streams that are there. -/
def streamsAfter? (n : Nat) : List WriteStep → Option Nat
  | [] => some n
  | first :: rest => (first.streams? n).bind fun m => streamsAfter? m rest

end

/-- From so many streams to so many, and only streams are addressed that are there. -/
inductive Addressed : Nat → List Deed → Nat → Prop
  | nil (n : Nat) : Addressed n [] n
  | cons {n m : Nat} {d : Deed} {deeds : List Deed} (hd : d.stream < n)
      (h : Addressed (n + d.derives) deeds m) : Addressed n (d :: deeds) m

namespace Addressed

variable {n m k : Nat} {d : Deed} {deeds more : List Deed}

theorem le (h : Addressed n deeds m) : n ≤ m := by
  induction h with
  | nil n => exact Nat.le_refl n
  | cons _ _ ih => omega

theorem append (h : Addressed n deeds m) (h' : Addressed m more k) :
    Addressed n (deeds ++ more) k := by
  induction h with
  | nil n => exact h'
  | cons hd _ ih => exact .cons hd (ih h')

end Addressed

mutual

/-- **A step does only what addresses streams that are there.** -/
theorem addressed_deeds : ∀ (step : WriteStep) {n m : Nat} (level : Nat),
    step.streams? n = some m → Addressed n (step.deeds level) m
  | .write i text, n, m, level, h | .append i text, n, m, level, h => by
    obtain ⟨hi, hm⟩ := Option.ite_none_right_eq_some.1 h
    cases hm
    exact .cons hi (.cons hi (.nil n))
  | .child i, n, m, level, h | .copy i, n, m, level, h => by
    obtain ⟨hi, hm⟩ := Option.ite_none_right_eq_some.1 h
    cases hm
    exact .cons hi (.cons (Nat.lt_succ_of_lt hi) (.nil (n + 1)))
  | .drain i, n, m, level, h => by
    obtain ⟨hi, hm⟩ := Option.ite_none_right_eq_some.1 h
    cases hm
    exact .cons hi (.nil n)
  | .block i opening closing body, n, m, level, h => by
    obtain ⟨hi, hbody⟩ := Option.ite_none_right_eq_some.1 h
    have hbody := addressed_deedsOf body (level + 1) hbody
    have hm := Nat.lt_of_lt_of_le hi hbody.le
    exact .cons hi (hbody.append (.cons hm (.cons hm (.nil m))))
  | .indented i body, n, m, level, h => by
    obtain ⟨hi, hbody⟩ := Option.ite_none_right_eq_some.1 h
    have hbody := addressed_deedsOf body (level + 1) hbody
    exact hbody.append (.cons (Nat.lt_of_lt_of_le hi hbody.le) (.nil m))

theorem addressed_deedsOf : ∀ (steps : List WriteStep) {n m : Nat} (level : Nat),
    streamsAfter? n steps = some m → Addressed n (deedsOf level steps) m
  | [], n, m, level, h => by
    cases h
    exact .nil n
  | first :: rest, n, m, level, h => by
    obtain ⟨k, hfirst, hrest⟩ := Option.bind_eq_some_iff.1 h
    exact (addressed_deeds first level hfirst).append (addressed_deedsOf rest level hrest)

end

/-! ## Each in its own buffer -/

section
variable {indent : Indent} {buffers : List String} {d : Deed} {deeds : List Deed} {i j n : Nat}

theorem length_on (indent : Indent) (buffers : List String) (d : Deed) :
    (d.on indent buffers).length = buffers.length + d.derives := by
  cases d <;> simp [Deed.on, Deed.derives]

theorem length_doAll (h : Addressed buffers.length deeds n) :
    (doAll indent deeds buffers).length = n := by
  induction deeds generalizing buffers with
  | nil =>
    cases h
    rfl
  | cons d deeds ih =>
    cases h with
    | cons hd h => exact ih (by rwa [length_on])

/-- **No deed changes the buffer of a stream but the one that it addresses.** -/
theorem getElem?_on (hj : j < buffers.length) (hne : j ≠ d.stream) :
    (d.on indent buffers)[j]? = buffers[j]? := by
  cases d with
  | put i piece => exact List.getElem?_modify_ne _ _ (Ne.symm hne)
  | take i level => exact List.getElem?_modify_ne _ _ (Ne.symm hne)
  | child i => exact List.getElem?_append_left hj
  | copy i => exact List.getElem?_append_left hj
  | finish i level => rfl

end

/-! ## Nothing lost or repeated -/

/-- The texts that are written to a stream, in order. -/
def written (indent : Indent) (j : Nat) (deeds : List Deed) : List String :=
  deeds.filterMap (Deed.text? indent j)

/-- The texts that are taken of a stream, in order. -/
def takenOf (j : Nat) (ends : List Ending) : List String :=
  ends.filterMap fun e => if e.stream = j then e.taken else none

section
variable {indent : Indent} {buffers : List String} {d : Deed} {deeds : List Deed} {i j n : Nat}

theorem takenOf_of_ne (hne : d.stream ≠ j) : takenOf j (d.ending? buffers).toList = [] := by
  cases d <;> simp_all [takenOf, Deed.ending?, Deed.stream]

theorem text?_of_ne (hne : d.stream ≠ j) : d.text? indent j = none := by
  cases d <;> simp_all [Deed.text?, Deed.stream]

/-- **What one deed takes of a stream and leaves in it** is what it held and what is written. -/
theorem taken_append_held_on (hj : j < buffers.length) :
    String.join (takenOf j (d.ending? buffers).toList) ++ held (d.on indent buffers) j =
      held buffers j ++ String.join (d.text? indent j).toList := by
  by_cases hd : d.stream = j
  · subst hd
    cases d with
    | put i piece =>
      have hi : i < buffers.length := hj
      simp [takenOf, Deed.ending?, held, Deed.on, Deed.text?, Deed.stream, hi]
    | take i level =>
      have hi : i < buffers.length := hj
      simp [takenOf, Deed.ending?, held, Deed.on, Deed.text?, Deed.stream, hi]
    | child i | copy i =>
      have hi : i < buffers.length := hj
      simp [takenOf, Deed.ending?, held, Deed.on, Deed.text?, Deed.stream,
        List.getElem?_append_left hi]
    | finish i level => simp [takenOf, Deed.ending?, held, Deed.on, Deed.text?]
  · rw [held, getElem?_on hj (Ne.symm hd), takenOf_of_ne hd, text?_of_ne hd]
    simp [held]

theorem takenOf_append (j : Nat) (ends more : List Ending) :
    takenOf j (ends ++ more) = takenOf j ends ++ takenOf j more := List.filterMap_append

theorem written_cons : written indent j (d :: deeds) =
    (d.text? indent j).toList ++ written indent j deeds := by
  rw [written, List.filterMap_cons]
  cases d.text? indent j <;> rfl

/-- **What is taken of a stream and what it holds at last** are what it held and what was written. -/
theorem taken_append_held (deeds : List Deed) (hj : j < buffers.length) :
    String.join (takenOf j (endings indent buffers deeds)) ++ held (doAll indent deeds buffers) j =
      held buffers j ++ String.join (written indent j deeds) := by
  induction deeds generalizing buffers with
  | nil => simp [endings, takenOf, written, doAll]
  | cons d deeds ih =>
    have hj' : j < (d.on indent buffers).length := by rw [length_on]; omega
    rw [endings, takenOf_append, String.join_append, doAll_cons, String.append_assoc, ih hj',
      ← String.append_assoc, taken_append_held_on hj, written_cons, String.join_append,
      String.append_assoc]

end

/-- What a stream holds at first: one that is there what it held before, and one that is derived
    nothing, or what the stream held that it is a copy of. -/
inductive Initially (indent : Indent) (buffers : List String) (deeds : List Deed) :
    Nat → String → Prop
  | there {j : Nat} (hj : j < buffers.length) : Initially indent buffers deeds j (held buffers j)
  | child (i : Nat) (before after : List Deed) (h : deeds = before ++ .child i :: after) :
      Initially indent buffers deeds (doAll indent before buffers).length ""
  | copy (i : Nat) (before after : List Deed) (h : deeds = before ++ .copy i :: after) :
      Initially indent buffers deeds (doAll indent before buffers).length
        (held (doAll indent before buffers) i)

section
variable {indent : Indent} {buffers : List String} {d : Deed} {deeds : List Deed} {j n : Nat}
  {text : String}

theorem Initially.cons (h : Initially indent (d.on indent buffers) deeds j text)
    (hj : (d.on indent buffers).length ≤ j) : Initially indent buffers (d :: deeds) j text := by
  cases h with
  | there hlt => exact absurd hlt (Nat.not_lt.2 hj)
  | child i before after h =>
    subst h
    exact .child i (d :: before) after rfl
  | copy i before after h =>
    subst h
    exact .copy i (d :: before) after rfl

/-- A stream that is derived holds at first what it is derived with. -/
theorem initially_of_derived (hge : buffers.length ≤ j) (hlt : j < (d.on indent buffers).length) :
    Initially indent buffers (d :: deeds) j (held (d.on indent buffers) j) := by
  have hlength := length_on indent buffers d
  cases d with
  | child i =>
    obtain rfl : j = buffers.length := by simp only [Deed.derives] at hlength; omega
    have hnew : held (Deed.on indent buffers (.child i)) buffers.length = "" := by
      simp [held, Deed.on]
    rw [hnew]
    exact .child i [] deeds rfl
  | copy i =>
    obtain rfl : j = buffers.length := by simp only [Deed.derives] at hlength; omega
    have hnew : held (Deed.on indent buffers (.copy i)) buffers.length = held buffers i := by
      simp [held, Deed.on]
    rw [hnew]
    exact .copy i [] deeds rfl
  | _ =>
    simp only [Deed.derives] at hlength
    omega

/-- **Nothing is lost or repeated**: for every stream that there is at last, what is taken of it and
    what it holds then are what it held at first and what was written to it. -/
theorem exists_initially (h : Addressed buffers.length deeds n) (hj : j < n) :
    ∃ text, Initially indent buffers deeds j text ∧
      String.join (takenOf j (endings indent buffers deeds)) ++
        held (doAll indent deeds buffers) j = text ++ String.join (written indent j deeds) := by
  rcases Nat.lt_or_ge j buffers.length with hlt | hge
  · exact ⟨_, .there hlt, taken_append_held deeds hlt⟩
  -- The stream is derived by some deed, and those before it do not address it.
  induction deeds generalizing buffers with
  | nil =>
    cases h
    exact absurd hj (Nat.not_lt.2 hge)
  | cons d deeds ih =>
    cases h with
    | cons hd h =>
      have hne : d.stream ≠ j := by omega
      have hfirst : takenOf j (endings indent buffers (d :: deeds)) =
          takenOf j (endings indent (d.on indent buffers) deeds) := by
        rw [endings, takenOf_append, takenOf_of_ne hne, List.nil_append]
      rw [hfirst, written_cons, text?_of_ne hne, doAll_cons]
      rcases Nat.lt_or_ge j (d.on indent buffers).length with hlt | hge'
      · exact ⟨_, initially_of_derived hge hlt, taken_append_held deeds hlt⟩
      · obtain ⟨text, hinitially, haccount⟩ := ih (by rwa [length_on]) hge'
        exact ⟨text, hinitially.cons hge', haccount⟩

end

end InterfaceGuards.Code
