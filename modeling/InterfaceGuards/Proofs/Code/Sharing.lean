/-
  Streams that share a depth.

  * `Family`: streams with a handle each on a depth; whatever is derived takes a further handle on
    the depth of the stream that it is derived from, and bodies change the depth through the handle
    of the stream that they are opened through.
  * `Streams.shared`: the family in which all handles stand for one depth.
  * `step_shared`, `run_shared`: no family leaves that form, and it goes on like the streams.
  * `run_start`: what the programs that write to a stream, and to those derived from it, come to.
-/
import InterfaceGuards.Proofs.Code.Deeds

namespace InterfaceGuards.Code

/-- Streams with a handle each on a depth: the stream at some place has the handle at that place. -/
structure Family where
  levels : Levels
  buffers : List String
deriving DecidableEq, Repr

namespace Family

/-- One empty stream at depth zero. -/
def start (indent : Indent) : Family := ⟨.start indent, [""]⟩

/-- The indentation that is seen through a stream. -/
def leading (f : Family) (i : Nat) : String := ((f.levels.get? i).map Level.leading).getD ""

/-- Appends a text as it is. -/
def append (f : Family) (i : Nat) (text : String) : Family :=
  { f with buffers := f.buffers.modify i (· ++ text) }

/-- Appends a text after the indentation. -/
def write (f : Family) (i : Nat) (text : String) : Family := f.append i (f.leading i ++ text)

/-- Takes what was written to a stream. -/
def drain (f : Family) (i : Nat) : Family := { f with buffers := f.buffers.modify i fun _ => "" }

/-- Derives a stream that holds a text. -/
def derive (f : Family) (i : Nat) (text : String) : Family :=
  ⟨f.levels.share i, f.buffers ++ [text]⟩

/-- One level deeper, through a stream. -/
def enter (f : Family) (i : Nat) : Family := { f with levels := f.levels.increase i }

/-- One level less deep, through a stream. -/
def leave (f : Family) (i : Nat) : Family := { f with levels := f.levels.decrease i }

mutual

/-- The streams after a step, and the streams after it and after every step inside it. -/
def step (f : Family) : WriteStep → Family × List Family
  | .write i text => (f.write i text, [f.write i text])
  | .append i text => (f.append i text, [f.append i text])
  | .drain i => (f.drain i, [f.drain i])
  | .child i => (f.derive i "", [f.derive i ""])
  | .copy i => (f.derive i (held f.buffers i), [f.derive i (held f.buffers i)])
  | .block i opening closing body =>
    let (g, seen) := ((f.write i opening).enter i).run body
    let g := (g.leave i).write i closing
    (g, seen ++ [g])
  | .indented i body =>
    let (g, seen) := (f.enter i).run body
    let g := g.leave i
    (g, seen ++ [g])

/-- The streams after some steps, and the streams after each of them. -/
def run (f : Family) : List WriteStep → Family × List Family
  | [] => (f, [])
  | first :: rest =>
    let (g, seen) := f.step first
    let (h, more) := g.run rest
    (h, seen ++ more)

end

section
variable (f : Family) (i : Nat) (opening closing : String) (first : WriteStep)
  (body rest : List WriteStep)

theorem step_block : f.step (.block i opening closing body) =
    (((((f.write i opening).enter i).run body).1.leave i).write i closing,
      (((f.write i opening).enter i).run body).2 ++
        [((((f.write i opening).enter i).run body).1.leave i).write i closing]) := rfl

theorem step_indented : f.step (.indented i body) =
    (((f.enter i).run body).1.leave i,
      ((f.enter i).run body).2 ++ [((f.enter i).run body).1.leave i]) := rfl

theorem run_cons : f.run (first :: rest) =
    (((f.step first).1.run rest).1, (f.step first).2 ++ ((f.step first).1.run rest).2) := rfl

end

end Family

/-! ## One depth -/

/-- The streams that there are at the end of a step. -/
def Ending.streams (indent : Indent) (e : Ending) : Streams := ⟨indent, e.level, e.buffers⟩

namespace Streams

variable {s : Streams} {i n : Nat}

/-- The family in which all handles stand for one depth. -/
def shared (s : Streams) : Family :=
  ⟨⟨[⟨s.indent, s.depth⟩], List.replicate s.buffers.length 0⟩, s.buffers⟩

/-- **Through every stream the one depth is seen.** -/
theorem toList_shared (s : Streams) :
    s.shared.levels.toList = List.replicate s.buffers.length ⟨s.indent, s.depth⟩ := by
  simp [shared, Levels.toList]

theorem start_shared (indent : Indent) : (start indent).shared = Family.start indent := rfl

theorem length_step {step : WriteStep} (h : step.streams? s.buffers.length = some n) :
    (s.step step).1.buffers.length = n := by
  rw [step_eq]
  exact length_doAll (addressed_deeds step s.depth h)

theorem length_run {steps : List WriteStep} (h : streamsAfter? s.buffers.length steps = some n) :
    (s.run steps).1.buffers.length = n := by
  rw [run_eq]
  exact length_doAll (addressed_deedsOf steps s.depth h)

/-! ## The same through every stream -/

theorem append_shared (s : Streams) (i : Nat) (text : String) :
    s.shared.append i text = (s.append i text).shared := by
  simp [Family.append, append, shared]

theorem drain_shared (s : Streams) (i : Nat) : s.shared.drain i = (s.drain i).2.shared := by
  simp [Family.drain, drain, shared]

section
variable (hi : i < s.buffers.length)
include hi

theorem write_shared (text : String) : s.shared.write i text = (s.write i text).shared := by
  have hleading : s.shared.leading i = s.indent.levels s.depth := by
    simp [Family.leading, Levels.get?, shared, hi, Level.leading]
  rw [Family.write, hleading, append_shared, write]

theorem enter_shared : s.shared.enter i = s.enter.shared := by
  simp [Family.enter, Levels.increase, Levels.change, shared, enter, hi]

theorem leave_shared : s.shared.leave i = s.leave.shared := by
  simp [Family.leave, Levels.decrease, Levels.change, shared, leave, hi]

theorem derive_shared (text : String) :
    s.shared.derive i text = ({ s with buffers := s.buffers ++ [text] } : Streams).shared := by
  simp [Family.derive, Levels.share, shared, hi, List.replicate_succ']

end

mutual

/-- **A step goes on like that of the streams**, if it addresses streams that are there. -/
theorem step_shared : ∀ (step : WriteStep) (s : Streams) {n : Nat},
    step.streams? s.buffers.length = some n → s.shared.step step = ((s.step step).1.shared,
      (endings s.indent s.buffers (step.deeds s.depth)).map fun e => (e.streams s.indent).shared)
  | .write i text, s, n, h => by
    obtain ⟨hi, -⟩ := Option.ite_none_right_eq_some.1 h
    rw [Family.step, write_shared hi]
    rfl
  | .append i text, s, n, h => by
    rw [Family.step, append_shared]
    rfl
  | .drain i, s, n, h => by
    rw [Family.step, drain_shared]
    rfl
  | .child i, s, n, h => by
    obtain ⟨hi, -⟩ := Option.ite_none_right_eq_some.1 h
    rw [Family.step, derive_shared hi]
    rfl
  | .copy i, s, n, h => by
    obtain ⟨hi, -⟩ := Option.ite_none_right_eq_some.1 h
    rw [Family.step, derive_shared hi]
    rfl
  | .block i opening closing body, s, n, h => by
    obtain ⟨hi, hbody⟩ := Option.ite_none_right_eq_some.1 h
    have hopen : (s.write i opening).buffers.length = s.buffers.length := List.length_modify _ _ _
    have hinner : streamsAfter? (s.write i opening).enter.buffers.length body = some n := by
      rwa [enter, hopen]
    have hi' : i < ((s.write i opening).enter.run body).1.buffers.length := by
      rw [length_run hinner]
      exact Nat.lt_of_lt_of_le hi (addressed_deedsOf body 0 hbody).le
    rw [Family.step_block, write_shared hi, enter_shared (hopen ▸ hi), run_shared body _ hinner,
      leave_shared hi', write_shared (s := ((s.write i opening).enter.run body).1.leave) hi',
      step_block]
    simp only [WriteStep.deeds, endings, endings_append, List.map_append, run_eq body]
    rfl
  | .indented i body, s, n, h => by
    obtain ⟨hi, hbody⟩ := Option.ite_none_right_eq_some.1 h
    have hi' : i < (s.enter.run body).1.buffers.length := by
      rw [length_run (s := s.enter) hbody]
      exact Nat.lt_of_lt_of_le hi (addressed_deedsOf body 0 hbody).le
    rw [Family.step_indented, enter_shared hi, run_shared body s.enter hbody, leave_shared hi',
      step_indented]
    simp only [WriteStep.deeds, endings_append, List.map_append, run_eq body]
    rfl

theorem run_shared : ∀ (steps : List WriteStep) (s : Streams) {n : Nat},
    streamsAfter? s.buffers.length steps = some n → s.shared.run steps = ((s.run steps).1.shared,
      (endings s.indent s.buffers (deedsOf s.depth steps)).map fun e => (e.streams s.indent).shared)
  | [], s, n, h => rfl
  | first :: rest, s, n, h => by
    obtain ⟨k, hfirst, hrest⟩ := Option.bind_eq_some_iff.1 h
    rw [← length_step hfirst] at hrest
    rw [Family.run_cons, step_shared first s hfirst, run_shared rest _ hrest, run_cons,
      step_eq first s, deedsOf, endings_append, List.map_append]

end

/-! ## From one stream on -/

/-- **Streams that share a depth, and have each a buffer of its own.**  For a program that addresses
    only streams that are there:

    * the run comes to what the program does, with a depth of zero at last, also if the depth is
      reached through as many handles as there are streams;
    * at the end of every step the depth that is seen, through whichever stream, is the number of
      bodies around the step;
    * a step does what it does at this depth, wherever it stands: its lines have so many levels of
      indentation in front;
    * no buffer changes but that of the stream that is addressed;
    * what is taken of a stream and what it holds at last are what it held at first and what was
      written to it. -/
theorem run_accounted {steps : List WriteStep} (h : streamsAfter? 1 steps = some n)
    (indent : Indent) :
    let deeds := deedsOf 0 steps
    let ends := endings indent [""] deeds
    let last : Streams := ⟨indent, 0, doAll indent deeds [""]⟩
    ((start indent).run steps = (last, ends.map Ending.record) ∧
      (Family.start indent).run steps =
        (last.shared, ends.map fun e => (e.streams indent).shared)) ∧
    (∀ e ∈ ends, (e.streams indent).shared.levels.toList =
      List.replicate e.buffers.length ⟨indent, e.level⟩) ∧
    (∀ k step, Within k step steps → step.deeds k <:+: deeds) ∧
    (∀ before d after, deeds = before ++ d :: after →
      ∀ j < (doAll indent before [""]).length, j ≠ d.stream →
        (doAll indent (before ++ [d]) [""])[j]? = (doAll indent before [""])[j]?) ∧
    last.buffers.length = n ∧ ∀ j < n, ∃ text, Initially indent [""] deeds j text ∧
      String.join (takenOf j ends) ++ last.buffer j = text ++ String.join (written indent j deeds) := by
  intro deeds ends last
  have haddressed : Addressed [""].length deeds n := addressed_deedsOf steps 0 h
  have hrun := run_eq steps (start indent)
  have hshared := run_shared steps (start indent) h
  rw [start_shared, hrun] at hshared
  refine ⟨⟨hrun, hshared⟩, fun e _ => toList_shared _, fun k step hstep => ?_, ?_,
    length_doAll haddressed, fun j hj => exists_initially haddressed hj⟩
  · simpa using hstep.isInfix 0
  · intro before d after _ j hj hne
    rw [doAll_append]
    exact getElem?_on hj hne

/-- A text is copied inside of two bodies that were opened through different streams, taken, and
    written to. -/
theorem run_accounted_copied :
    let steps : List WriteStep := [.child 0, .block 0 "f(" ")" [.write 1 "a", .indented 1
      [.write 0 "b", .copy 1, .drain 1, .write 2 "c"]], .write 1 "d"]
    let ran := (start .tab).run steps
    streamsAfter? 1 steps = some 3 ∧
      ran.1 = ⟨.tab, 0, ["f(\t\tb)", "d", "\ta\t\tc"]⟩ ∧
      ran.2.map WriteRecord.depth = [0, 1, 2, 2, 2, 2, 1, 0, 0] ∧
      ∃ text, Initially .tab [""] (deedsOf 0 steps) 2 text ∧ ran.1.buffer 2 = text ++ "\t\tc" := by
  intro steps ran
  have h : streamsAfter? 1 steps = some 3 := by decide
  obtain ⟨⟨hrun, -⟩, -, -, -, -, haccount⟩ := run_accounted h .tab
  obtain ⟨text, hinitially, htext⟩ := haccount 2 (by decide)
  have htaken : takenOf 2 (endings .tab [""] (deedsOf 0 steps)) = [] := by decide +kernel
  have hwritten : written .tab 2 (deedsOf 0 steps) = ["\t\tc"] := by decide +kernel
  have hlast : ran.1 = ⟨.tab, 0, doAll .tab (deedsOf 0 steps) [""]⟩ := congrArg Prod.fst hrun
  rw [htaken, hwritten, ← hlast] at htext
  exact ⟨h, by decide +kernel, by decide +kernel, text, hinitially, by simpa using htext⟩

end Streams

end InterfaceGuards.Code
