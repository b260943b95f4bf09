/-
  Writing code to streams, step by step.

  * `Streams.Wrote`: a text was written to one stream of a family; the others, the indentation and
    the depth are as before, and further streams may have been derived.
  * `Writing`: code being written that comes to a value, an error or no end; what was written
    before an error stays.
  * `Writing.Emits`: what is written is the text of a code, the lines of which stand as deep as the
    stream and as much deeper as they say.
  * `Writing.Writes`: the same, where the code is that of what a synthesis makes.
-/
import InterfaceGuards.Code.Stream
import InterfaceGuards.Proofs.Code.Same
import InterfaceGuards.Proofs.Synthesis.Outcome

namespace InterfaceGuards

/-! ## Streams -/

namespace Code.Streams

variable {w w' w'' : Streams} {i j : Nat} {s t : String}

theorem buffer_append (hi : i < w.buffers.length) : (w.append i t).buffer i = w.buffer i ++ t := by
  simp [append, buffer, hi]

theorem buffer_append_of_ne (h : j ≠ i) : (w.append i t).buffer j = w.buffer j := by
  simp [append, buffer, h.symm]

/-- The first streams are all there, and nothing was written to them. -/
structure Keeps (w w' : Streams) : Prop where
  indent : w'.indent = w.indent
  depth : w'.depth = w.depth
  length_le : w.buffers.length ≤ w'.buffers.length
  buffers : ∀ j < w.buffers.length, w'.buffer j = w.buffer j

/-- The text was written to the stream and nothing to the others. -/
structure Wrote (w : Streams) (i : Nat) (t : String) (w' : Streams) : Prop where
  indent : w'.indent = w.indent
  depth : w'.depth = w.depth
  length_le : w.buffers.length ≤ w'.buffers.length
  buffer : w'.buffer i = w.buffer i ++ t
  others : ∀ j < w.buffers.length, j ≠ i → w'.buffer j = w.buffer j

theorem Keeps.refl (w : Streams) : w.Keeps w := ⟨rfl, rfl, Nat.le_refl _, fun _ _ => rfl⟩

theorem Keeps.trans (h : w.Keeps w') (h' : w'.Keeps w'') : w.Keeps w'' where
  indent := h'.indent.trans h.indent
  depth := h'.depth.trans h.depth
  length_le := Nat.le_trans h.length_le h'.length_le
  buffers j hj := (h'.buffers j (Nat.lt_of_lt_of_le hj h.length_le)).trans (h.buffers j hj)

theorem Keeps.wrote (h : w.Keeps w') (hi : i < w.buffers.length) : w.Wrote i "" w' where
  indent := h.indent
  depth := h.depth
  length_le := h.length_le
  buffer := by rw [h.buffers i hi, String.append_empty]
  others j hj _ := h.buffers j hj

theorem Wrote.trans (h : w.Wrote i s w') (h' : w'.Wrote i t w'') : w.Wrote i (s ++ t) w'' where
  indent := h'.indent.trans h.indent
  depth := h'.depth.trans h.depth
  length_le := Nat.le_trans h.length_le h'.length_le
  buffer := by rw [h'.buffer, h.buffer, String.append_assoc]
  others j hj hne := (h'.others j (Nat.lt_of_lt_of_le hj h.length_le) hne).trans (h.others j hj hne)

theorem wrote_append (hi : i < w.buffers.length) : w.Wrote i t (w.append i t) where
  indent := rfl
  depth := rfl
  length_le := by simp [append]
  buffer := buffer_append hi
  others _ _ hne := buffer_append_of_ne hne

/-- What is written one level deeper, seen from outside. -/
theorem Wrote.leave (h : w.enter.Wrote i t w') : w.Wrote i t w'.leave where
  indent := h.indent
  depth := by
    show w'.depth - 1 = w.depth
    rw [h.depth]
    rfl
  length_le := h.length_le
  buffer := h.buffer
  others := h.others

theorem keeps_child (w : Streams) : w.Keeps w.child where
  indent := rfl
  depth := rfl
  length_le := by simp [child]
  buffers j hj := by simp [child, buffer, List.getElem?_append_left hj]

theorem buffer_child (w : Streams) : w.child.buffer w.buffers.length = "" := by
  simp [child, buffer]

/-- What is written to a stream just derived leaves the streams from before as they are. -/
theorem Wrote.of_child (h : w.child.Wrote w.buffers.length t w') :
    w.Keeps w' ∧ w'.buffer w.buffers.length = t := by
  have hchild := keeps_child w
  refine ⟨⟨h.indent, h.depth, Nat.le_trans hchild.length_le h.length_le, fun j hj => ?_⟩, ?_⟩
  · rw [h.others j (Nat.lt_of_lt_of_le hj hchild.length_le) (Nat.ne_of_lt hj), hchild.buffers j hj]
  · rw [h.buffer, buffer_child, String.empty_append]

theorem keeps_drain (hi : w.buffers.length ≤ i) (h : w.Keeps w') : w.Keeps (w'.drain i).2 where
  indent := h.indent
  depth := h.depth
  length_le := by simpa [drain] using h.length_le
  buffers j hj := by
    rw [← h.buffers j hj]
    simp [drain, buffer, show i ≠ j by omega]

end Code.Streams

open Code (Streams)

/-! ## Writing -/

/-- Code being written to streams: what comes of it, and the streams afterwards. -/
structure Writing (α : Type) where
  run : Streams → Synthesis α × Streams

namespace Writing

variable {α β γ : Type}

/-- Nothing written. -/
protected def pure (a : α) : Writing α := ⟨fun w => (pure a, w)⟩

/-- One thing written after another. -/
protected def bind (x : Writing α) (f : α → Writing β) : Writing β := ⟨fun w =>
  match x.run w with
  | (⟨notes, .value a⟩, w') =>
    let (made, w'') := (f a).run w'
    (⟨notes ++ made.notes, made.outcome⟩, w'')
  | (⟨notes, .error e⟩, w') => (⟨notes, .error e⟩, w')
  | (⟨notes, .endless⟩, w') => (⟨notes, .endless⟩, w')⟩

instance : Monad Writing where
  pure := Writing.pure
  bind := Writing.bind

/-- A synthesis that writes nothing. -/
def lift (x : Synthesis α) : Writing α := ⟨fun w => (x, w)⟩

/-- Appends a text as it is. -/
def append (i : Nat) (text : String) : Writing Unit := ⟨fun w => (pure (), w.append i text)⟩

/-- Appends a text after the indentation. -/
def write (i : Nat) (text : String) : Writing Unit := ⟨fun w => (pure (), w.write i text)⟩

/-- Derives an empty stream. -/
def child : Writing Nat := ⟨fun w => (pure w.buffers.length, w.child)⟩

/-- Takes what was written to a stream. -/
def take (i : Nat) : Writing String := ⟨fun w =>
  let (text, w') := w.drain i
  (pure text, w')⟩

/-- The result, an error included; what was written stays. -/
def attempt (x : Writing α) : Writing (Except SynthesisError α) := ⟨fun w =>
  let (made, w') := x.run w
  (made.attempt, w')⟩

/-- Something written one level deeper. -/
def indented (body : Writing α) : Writing α := ⟨fun w =>
  let (made, w') := body.run w.enter
  (made, w'.leave)⟩

/-- Something written between two lines, one level deeper; the second is written whatever comes of
    it. -/
def block (i : Nat) (opening : String) (body : Writing α) (closing : String) : Writing α :=
  ⟨fun w =>
  let (made, w') := (indented body).run (w.write i opening)
  (made, w'.write i closing)⟩

/-! ## What is written -/

/-- To whatever stream it is written, at whatever depth and indentation, it comes to the same, and
    what is written is the text of the code as deep as the stream. -/
def Emits (run : Nat → Writing α) (made : Synthesis α) (code : Code) : Prop :=
  ∀ (w : Streams) (i : Nat), i < w.buffers.length →
    ∃ w', (run i).run w = (made, w') ∧ w.Wrote i ((code.shift w.depth).text w.indent) w'

theorem emits_lift (made : Synthesis α) : Emits (fun _ => lift made) made [] := by
  intro w i hi
  exact ⟨w, rfl, (Streams.Keeps.refl w).wrote hi⟩

theorem emits_append (text : String) : Emits (fun i => append i text) (pure ()) [.raw text] := by
  intro w i hi
  refine ⟨w.append i text, rfl, ?_⟩
  simpa using Streams.wrote_append hi

theorem emits_write (text : String) : Emits (fun i => write i text) (pure ()) [.line 0 text] := by
  intro w i hi
  refine ⟨w.write i text, rfl, ?_⟩
  have := Streams.wrote_append (t := w.indent.levels w.depth ++ text) hi
  simpa [Streams.write] using this

theorem run_append (i : Nat) (text : String) (w : Streams) :
    (append i text).run w = (pure (), w.append i text) := rfl

theorem run_write (i : Nat) (text : String) (w : Streams) :
    (write i text).run w = (pure (), w.write i text) := rfl

theorem run_child (w : Streams) : child.run w = (pure w.buffers.length, w.child) := rfl

theorem run_take (i : Nat) (w : Streams) :
    (take i).run w = (pure (w.buffer i), (w.drain i).2) := rfl

theorem run_attempt (x : Writing α) (w : Streams) :
    (attempt x).run w = ((x.run w).1.attempt, (x.run w).2) := rfl

theorem run_indented (body : Writing α) (w : Streams) :
    (indented body).run w = ((body.run w.enter).1, (body.run w.enter).2.leave) := rfl

theorem run_block (i : Nat) (opening : String) (body : Writing α) (closing : String) (w : Streams) :
    (block i opening body closing).run w =
      (((indented body).run (w.write i opening)).1,
        ((indented body).run (w.write i opening)).2.write i closing) := rfl

theorem bind_of_value {x : Writing α} {f : α → Writing β} {w w' : Streams} {n : Notes} {a : α}
    (h : x.run w = (⟨n, .value a⟩, w')) :
    (x >>= f).run w =
      (⟨n ++ ((f a).run w').1.notes, ((f a).run w').1.outcome⟩, ((f a).run w').2) := by
  show (Writing.bind x f).run w = _
  simp only [Writing.bind, h]

theorem bind_of_pure {x : Writing α} {f : α → Writing β} {w w' : Streams} {a : α}
    (h : x.run w = (pure a, w')) : (x >>= f).run w = (f a).run w' := by
  rw [bind_of_value h, Notes.empty_append]

theorem bind_of_error {x : Writing α} {f : α → Writing β} {w w' : Streams} {n : Notes}
    {e : SynthesisError} (h : x.run w = (⟨n, .error e⟩, w')) :
    (x >>= f).run w = (⟨n, .error e⟩, w') := by
  show (Writing.bind x f).run w = _
  simp only [Writing.bind, h]

theorem bind_of_endless {x : Writing α} {f : α → Writing β} {w w' : Streams} {n : Notes}
    (h : x.run w = (⟨n, .endless⟩, w')) : (x >>= f).run w = (⟨n, .endless⟩, w') := by
  show (Writing.bind x f).run w = _
  simp only [Writing.bind, h]

/-- **One thing after another**: the codes follow each other; after an error nothing more is
    written. -/
theorem Emits.bind {x : Nat → Writing α} {f : Nat → α → Writing β} {made : Synthesis α}
    {more : α → Synthesis β} {code : Code} {next : α → Code} (hx : Emits x made code)
    (hf : ∀ a, made.outcome = .value a → Emits (fun i => f i a) (more a) (next a)) :
    ∃ pieces, Emits (fun i => x i >>= f i) (made >>= more) pieces ∧
      ∀ a, made.outcome = .value a → pieces = code ++ next a := by
  obtain ⟨n, o⟩ := made
  cases o with
  | value a =>
    refine ⟨code ++ next a, fun w i hi => ?_, fun b hb => by cases hb; rfl⟩
    obtain ⟨w', hrun, hw'⟩ := hx w i hi
    obtain ⟨w'', hnext, hw''⟩ := hf a rfl w' i (Nat.lt_of_lt_of_le hi hw'.length_le)
    refine ⟨w'', ?_, ?_⟩
    · rw [bind_of_value hrun, hnext]
      rfl
    · rw [Code.shift_append, Code.text_append]
      rw [hw'.indent, hw'.depth] at hw''
      exact hw'.trans hw''
  | error e =>
    refine ⟨code, fun w i hi => ?_, nofun⟩
    obtain ⟨w', hrun, hw'⟩ := hx w i hi
    exact ⟨w', bind_of_error hrun, hw'⟩
  | endless =>
    refine ⟨code, fun w i hi => ?_, nofun⟩
    obtain ⟨w', hrun, hw'⟩ := hx w i hi
    exact ⟨w', bind_of_endless hrun, hw'⟩

theorem Emits.indented {body : Nat → Writing α} {made : Synthesis α} {code : Code}
    (h : Emits body made code) : Emits (fun i => indented (body i)) made (Code.deeper code) := by
  intro w i hi
  obtain ⟨w', hrun, hw'⟩ := h w.enter i hi
  refine ⟨w'.leave, ?_, ?_⟩
  · rw [run_indented, hrun]
  · rw [Code.deeper, Code.shift_shift, Nat.add_comm]
    exact hw'.leave

theorem Emits.block {body : Nat → Writing α} {made : Synthesis α} {code : Code}
    (h : Emits body made code) (opening closing : String) :
    Emits (fun i => block i opening (body i) closing) made (Code.block opening code closing) := by
  intro w i hi
  obtain ⟨_, hopen, hw₁⟩ := emits_write opening w i hi
  cases hopen
  have hi₁ := Nat.lt_of_lt_of_le hi hw₁.length_le
  obtain ⟨w₂, hbody, hw₂⟩ := h.indented _ i hi₁
  obtain ⟨_, hclose, hw₃⟩ := emits_write closing w₂ i (Nat.lt_of_lt_of_le hi₁ hw₂.length_le)
  cases hclose
  refine ⟨w₂.write i closing, ?_, ?_⟩
  · rw [run_block, hbody]
  · rw [hw₂.indent, hw₂.depth, hw₁.indent, hw₁.depth] at hw₃
    rw [hw₁.indent, hw₁.depth] at hw₂
    have := (hw₁.trans hw₂).trans hw₃
    simpa [Code.block, String.append_assoc] using this

/-! ## Writing what is made -/

/-- What is written comes to what the synthesis comes to, and when that is a value, its code is
    written. -/
def Writes (run : Nat → Writing Unit) (made : Synthesis α) (code : α → Code) : Prop :=
  ∃ pieces, Emits run made.void pieces ∧ ∀ a, made.outcome = .value a → pieces = code a

section
variable {x y : Nat → Writing Unit} {made : Synthesis α} {more : Synthesis β} {code : α → Code}
  {next : β → Code}

theorem writes_failed (e : SynthesisError) (code : α → Code) :
    Writes (fun _ => lift (Synthesis.fail e)) (Synthesis.fail e) code :=
  ⟨[], emits_lift _, nofun⟩

theorem writes_endless (code : α → Code) :
    Writes (fun _ => lift Synthesis.endless) Synthesis.endless code :=
  ⟨[], emits_lift _, nofun⟩

theorem writes_nothing (a : α) (h : code a = []) : Writes (fun _ => pure ()) (pure a) code := by
  refine ⟨[], emits_lift (pure ()), fun b hb => ?_⟩
  cases hb
  exact h.symm

theorem writes_append (a : α) (text : String) (h : code a = [.raw text]) :
    Writes (fun i => append i text) (pure a) code := by
  refine ⟨[.raw text], emits_append text, fun b hb => ?_⟩
  cases hb
  exact h.symm

theorem writes_write (a : α) (text : String) (h : code a = [.line 0 text]) :
    Writes (fun i => write i text) (pure a) code := by
  refine ⟨[.line 0 text], emits_write text, fun b hb => ?_⟩
  cases hb
  exact h.symm

theorem Writes.block (h : Writes x made code) (opening closing : String) :
    Writes (fun i => block i opening (x i) closing) made
      fun a => Code.block opening (code a) closing := by
  obtain ⟨pieces, hemits, hcode⟩ := h
  exact ⟨Code.block opening pieces closing, hemits.block opening closing,
    fun a ha => by rw [hcode a ha]⟩

/-- The two are written one after the other, and what they make is put together. -/
theorem Writes.seq (hx : Writes x made code) (hy : Writes y more next) (combine : α → β → γ)
    {whole : γ → Code} (h : ∀ a b, made.outcome = .value a → more.outcome = .value b →
      whole (combine a b) = code a ++ next b) :
    Writes (fun i => do x i; y i)
      (do let a ← made; let b ← more; pure (combine a b)) whole := by
  obtain ⟨first, hfirst, hcode⟩ := hx
  obtain ⟨second, hsecond, hnext⟩ := hy
  obtain ⟨pieces, hpieces, hvalue⟩ := hfirst.bind fun _ _ => hsecond
  obtain ⟨m, o⟩ := made
  obtain ⟨n, o'⟩ := more
  cases o with
  | error e => exact ⟨pieces, hpieces, nofun⟩
  | endless => exact ⟨pieces, hpieces, nofun⟩
  | value a =>
    have hvoid : (((⟨m, .value a⟩ : Synthesis α) >>= fun a => (⟨n, o'⟩ : Synthesis β) >>= fun b =>
        pure (combine a b)) : Synthesis γ).void = ⟨m ++ n, o'.void⟩ := by
      cases o' <;> simp [bind, Synthesis.bind, pure, Synthesis.pure, Synthesis.void, Outcome.void,
        Notes.append_empty]
    refine ⟨pieces, ?_, fun c hc => ?_⟩
    · rw [hvoid]
      exact hpieces
    · cases o' with
      | value b =>
        cases hc
        rw [hvalue () rfl, hcode a rfl, hnext b rfl, h a b rfl rfl]
      | error e => cases hc
      | endless => cases hc

theorem Writes.map (hx : Writes x made code) {f : α → β} (h : ∀ a, next (f a) = code a) :
    Writes x (do let a ← made; pure (f a)) next := by
  obtain ⟨pieces, hemits, hcode⟩ := hx
  obtain ⟨n, o⟩ := made
  cases o with
  | value a =>
    refine ⟨pieces, ?_, fun b hb => ?_⟩
    · simpa [bind, Synthesis.bind, pure, Synthesis.pure, Synthesis.void, Outcome.void,
        Notes.append_empty] using hemits
    · cases hb
      rw [hcode a rfl, h]
  | error e => exact ⟨pieces, hemits, fun _ h => by cases h⟩
  | endless => exact ⟨pieces, hemits, fun _ h => by cases h⟩

theorem Writes.indented (hx : Writes x made code) :
    Writes (fun i => indented (x i)) made fun a => Code.deeper (code a) := by
  obtain ⟨pieces, hemits, hcode⟩ := hx
  exact ⟨Code.deeper pieces, hemits.indented, fun a ha => by rw [hcode a ha]⟩

/-- A fixed text is written last, unless there is an error. -/
theorem Writes.after (hx : Writes x made code) {last : Code} (hy : Emits y (pure ()) last) :
    Writes (fun i => do x i; y i) made fun a => code a ++ last := by
  have hlast : Writes y (pure ()) fun _ => last := ⟨last, hy, fun _ _ => rfl⟩
  have hsame : (made >>= fun a => (pure () : Synthesis Unit) >>= fun _ => pure a) = made := by
    obtain ⟨n, o⟩ := made
    cases o with
    | value a =>
      show (⟨n ++ (Notes.empty ++ Notes.empty), .value a⟩ : Synthesis α) = _
      rw [Notes.append_empty, Notes.append_empty]
    | error e => rfl
    | endless => rfl
  have := hx.seq hlast (fun a _ => a) fun a _ _ _ => rfl
  rwa [hsame] at this

/-- A fixed text is written first. -/
theorem Writes.before (hx : Writes x made code) {first : Code} (hy : Emits y (pure ()) first) :
    Writes (fun i => do y i; x i) made fun a => first ++ code a := by
  have hfirst : Writes y (pure ()) fun _ => first := ⟨first, hy, fun _ _ => rfl⟩
  have hsame : ((pure () : Synthesis Unit) >>= fun _ => made >>= fun a => pure a) = made := by
    obtain ⟨n, o⟩ := made
    cases o with
    | value a =>
      show (⟨Notes.empty ++ (n ++ Notes.empty), .value a⟩ : Synthesis α) = _
      rw [Notes.append_empty, Notes.empty_append]
    | error e =>
      show (⟨Notes.empty ++ n, .error e⟩ : Synthesis α) = _
      rw [Notes.empty_append]
    | endless =>
      show (⟨Notes.empty ++ n, .endless⟩ : Synthesis α) = _
      rw [Notes.empty_append]
  have := hfirst.seq hx (fun _ a => a) fun _ a _ _ => rfl
  rwa [hsame] at this

/-- Something is found out first, and nothing written for it. -/
theorem Writes.first (found : Synthesis β) {z : Nat → β → Writing Unit} {made : β → Synthesis α}
    (h : ∀ b, Writes (fun i => z i b) (made b) code) :
    Writes (fun i => do let b ← lift found; z i b) (found >>= made) code := by
  obtain ⟨n, o⟩ := found
  cases o with
  | value b =>
    obtain ⟨pieces, hemits, hcode⟩ := h b
    refine ⟨pieces, fun w i hi => ?_, fun a ha => hcode a ha⟩
    obtain ⟨w', hrun, hw'⟩ := hemits w i hi
    refine ⟨w', ?_, hw'⟩
    have hfound : (lift (⟨n, .value b⟩ : Synthesis β)).run w = (⟨n, .value b⟩, w) := rfl
    rw [bind_of_value hfound, hrun]
    rfl
  | error e => exact ⟨[], emits_lift _, nofun⟩
  | endless => exact ⟨[], emits_lift _, nofun⟩

end

theorem Emits.then {x y : Nat → Writing Unit} {first second : Code} (hx : Emits x (pure ()) first)
    (hy : Emits y (pure ()) second) : Emits (fun i => do x i; y i) (pure ()) (first ++ second) := by
  obtain ⟨pieces, hpieces, hvalue⟩ := hx.bind fun _ _ => hy
  rw [hvalue () rfl] at hpieces
  exact hpieces

/-! ## Texts taken -/

/-- What is made is rendered as a text that depends on the indentation and the depth only, and
    nothing is written to the streams from before. -/
def Renders (x : Writing β) (made : Synthesis α) (text : Code.Indent → Nat → α → β) : Prop :=
  ∀ w : Streams, ∃ w', x.run w = (made.map (text w.indent w.depth), w') ∧ w.Keeps w'

section
variable {δ : Type} {made : Synthesis α} {more : Synthesis β}

theorem Renders.seq {x : Writing γ} {y : Writing δ} {f : Code.Indent → Nat → α → γ}
    {g : Code.Indent → Nat → β → δ} (hx : Renders x made f) (hy : Renders y more g) {ε ζ : Type}
    (combine : α → β → ε) (glue : γ → δ → ζ) {whole : Code.Indent → Nat → ε → ζ}
    (h : ∀ indent depth a b, whole indent depth (combine a b) =
      glue (f indent depth a) (g indent depth b)) :
    Renders (do let p ← x; let q ← y; pure (glue p q))
      (do let a ← made; let b ← more; pure (combine a b)) whole := by
  intro w
  obtain ⟨w', hrun, hw'⟩ := hx w
  obtain ⟨w'', hrun', hw''⟩ := hy w'
  rw [hw'.indent, hw'.depth] at hrun'
  obtain ⟨m, o⟩ := made
  cases o with
  | error e => exact ⟨w', bind_of_error hrun, hw'⟩
  | endless => exact ⟨w', bind_of_endless hrun, hw'⟩
  | value a =>
    refine ⟨w'', ?_, hw'.trans hw''⟩
    rw [bind_of_value hrun]
    obtain ⟨n, o'⟩ := more
    cases o' with
    | error e => rw [bind_of_error hrun']; rfl
    | endless => rw [bind_of_endless hrun']; rfl
    | value b =>
      rw [bind_of_value hrun']
      show ((⟨m ++ (n ++ Notes.empty),
          .value (glue (f w.indent w.depth a) (g w.indent w.depth b))⟩ :
        Synthesis ζ), w'') = _
      rw [← h]
      rfl

/-- The text rendered is written. -/
theorem Renders.writes {x : Writing γ} {f : Code.Indent → Nat → α → γ} (hx : Renders x made f)
    {y : Nat → γ → Writing Unit} {code : α → Code}
    (hy : ∀ a (w : Streams) i, i < w.buffers.length →
      ∃ w', (y i (f w.indent w.depth a)).run w = (pure (), w') ∧
      w.Wrote i (((code a).shift w.depth).text w.indent) w') :
    Writes (fun i => x >>= y i) made code := by
  obtain ⟨n, o⟩ := made
  cases o with
  | error e =>
    refine ⟨[], fun w i hi => ?_, nofun⟩
    obtain ⟨w', hrun, hw'⟩ := hx w
    exact ⟨w', bind_of_error hrun, hw'.wrote hi⟩
  | endless =>
    refine ⟨[], fun w i hi => ?_, nofun⟩
    obtain ⟨w', hrun, hw'⟩ := hx w
    exact ⟨w', bind_of_endless hrun, hw'.wrote hi⟩
  | value a =>
    refine ⟨code a, fun w i hi => ?_, fun b hb => by cases hb; rfl⟩
    obtain ⟨w', hrun, hw'⟩ := hx w
    obtain ⟨w'', hrun', hw''⟩ := hy a w' i (Nat.lt_of_lt_of_le hi hw'.length_le)
    rw [hw'.indent, hw'.depth] at hrun' hw''
    refine ⟨w'', ?_, ?_⟩
    · rw [bind_of_value hrun, hrun']
      show ((⟨n ++ Notes.empty, .value ()⟩ : Synthesis Unit), w'') = _
      rw [Notes.append_empty]
      rfl
    · simpa using (hw'.wrote hi).trans hw''

end

end Writing

end InterfaceGuards
