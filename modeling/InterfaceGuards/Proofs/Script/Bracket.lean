/-
  Reading brackets and string literals in scripts.

  * `Position.next?`: what a reader expects after a character; a bracket that closes none that is
    open, and a line that ends inside a literal, cannot be read.
  * `Turns`: reading a text leads from the brackets that have to be closed before it to those
    after it.
  * `Balanced`, `Single`: every bracket opened in a text is closed in it, no other is, and every
    literal is closed on its line; a text is single if, besides, no comma stands outside its
    brackets.
  * `Turns.append`, `Turns.frame`: texts are read one after the other, and inside further brackets.
-/
import InterfaceGuards.Proofs.Code.Same
import Mathlib.Tactic.SplitIfs

namespace InterfaceGuards

namespace Script

/-! ## Reading -/

/-- What a character means to a reader of a script. -/
inductive Sign where
  | opening (closer : Char)
  | closing
  | quote
  | comma
  | backslash
  | lineEnd
  | plain
deriving DecidableEq, Repr

/-- The meaning of a character.  Only a line feed or a carriage return ends a line inside a literal:
    JavaScript lets the separators U+2028 and U+2029 stand in one. -/
def sign : Char → Sign
  | '(' => .opening ')'
  | '[' => .opening ']'
  | '\x7b' => .opening '\x7d'
  | ')' | ']' | '\x7d' => .closing
  | '"' | '\'' => .quote
  | ',' => .comma
  | '\\' => .backslash
  | '\n' | '\r' => .lineEnd
  | _ => .plain

/-- What is read: code, a literal in its quotation marks, or what follows a backslash in one. -/
inductive Mode where
  | code
  | literal (mark : Char)
  | escape (mark : Char)
deriving DecidableEq, Repr

/-- Where a reader is: what it reads, and what closes the open brackets, the innermost first. -/
structure Position where
  closers : List Char
  mode : Mode
deriving DecidableEq, Repr

/-- The position after a character.  Outside all brackets a comma is read only if commas are let
    through. -/
def Position.next? (commas : Bool) (p : Position) (c : Char) : Option Position :=
  match p.mode, sign c with
  | .code, .opening closer => some { p with closers := closer :: p.closers }
  | .code, .closing =>
    match p.closers with
    | closer :: rest => if c = closer then some { p with closers := rest } else none
    | [] => none
  | .code, .quote => some { p with mode := .literal c }
  | .code, .comma => if commas || !p.closers.isEmpty then some p else none
  | .code, _ => some p
  | .literal _, .lineEnd => none
  | .literal mark, .quote => some (if c = mark then { p with mode := .code } else p)
  | .literal mark, .backslash => some { p with mode := .escape mark }
  | .literal _, _ => some p
  | .escape _, .lineEnd => none
  | .escape mark, _ => some { p with mode := .literal mark }

/-- The position after several characters. -/
def Position.read? (commas : Bool) (p : Position) : List Char → Option Position
  | [] => some p
  | c :: cs => (p.next? commas c).bind fun q => q.read? commas cs

/-- Reading a text leads from the brackets that close those open before it to those that close those
    open after it. -/
def Turns (commas : Bool) (t : String) (before after : List Char) : Prop :=
  Position.read? commas ⟨before, .code⟩ t.toList = some ⟨after, .code⟩

instance (commas : Bool) (t : String) (before after : List Char) :
    Decidable (Turns commas t before after) :=
  inferInstanceAs (Decidable (_ = _))

/-- A text in which brackets are properly nested and every literal is closed on its line. -/
abbrev Balanced (t : String) : Prop := Turns true t [] []

/-- A balanced text with no comma outside its brackets and literals. -/
abbrev Single (t : String) : Prop := Turns false t [] []

/-! ## Steps -/

variable {commas commas' : Bool} {s t : String} {before between after below : List Char}
  {p q : Position} {c : Char}

theorem Position.read?_append (p : Position) (cs ds : List Char) :
    p.read? commas (cs ++ ds) = (p.read? commas cs).bind fun q => q.read? commas ds := by
  induction cs generalizing p with
  | nil => rfl
  | cons c cs ih =>
    rw [List.cons_append, read?, read?, Option.bind_assoc]
    congr 1
    funext q
    exact ih q

/-- A position inside further brackets. -/
def Position.inside (p : Position) (below : List Char) : Position :=
  { p with closers := p.closers ++ below }

/-- What is read is read inside further brackets too, where commas are let through. -/
theorem Position.next?_inside (hc : commas = true → commas' = true ∨ below ≠ [])
    (h : p.next? commas c = some q) : (p.inside below).next? commas' c = some (q.inside below) := by
  obtain ⟨closers, mode⟩ := p
  unfold next? inside at *
  dsimp only at h ⊢
  generalize sign c = meaning at h ⊢
  cases mode with
  | code =>
    cases meaning with
    | closing =>
      cases closers with
      | nil => cases h
      | cons closer rest =>
        dsimp only [List.cons_append] at h ⊢
        split_ifs at h ⊢
        cases h
        rfl
    | comma =>
      dsimp only at h ⊢
      split_ifs at h with hread
      cases h
      have hthrough : commas' = true ∨ closers ++ below ≠ [] := by
        rcases (show commas = true ∨ closers ≠ [] by simpa using hread) with hcommas | hopen
        · exact (hc hcommas).imp_right (List.append_ne_nil_of_right_ne_nil _)
        · exact .inr (List.append_ne_nil_of_left_ne_nil hopen _)
      rw [if_pos (by simpa using hthrough)]
    | _ => cases h; rfl
  | literal mark =>
    cases meaning with
    | lineEnd => cases h
    | quote =>
      cases h
      dsimp only
      split_ifs <;> rfl
    | _ => cases h; rfl
  | escape mark =>
    cases meaning with
    | lineEnd => cases h
    | _ => cases h; rfl

theorem Position.read?_inside (hc : commas = true → commas' = true ∨ below ≠ []) {cs : List Char}
    (h : p.read? commas cs = some q) :
    (p.inside below).read? commas' cs = some (q.inside below) := by
  induction cs generalizing p with
  | nil =>
    cases h
    rfl
  | cons c cs ih =>
    obtain ⟨between, hnext, hrest⟩ := Option.bind_eq_some_iff.1 h
    exact Option.bind_eq_some_iff.2 ⟨_, next?_inside hc hnext, ih hrest⟩

namespace Turns

/-- **Texts are read one after the other.** -/
theorem append (hs : Turns commas s before between) (ht : Turns commas t between after) :
    Turns commas (s ++ t) before after := by
  unfold Turns at *
  rw [String.toList_append, Position.read?_append, hs]
  exact ht

/-- **A text stays what it is inside further brackets.** -/
theorem inside (h : Turns commas t before after) (below : List Char) :
    Turns commas t (before ++ below) (after ++ below) :=
  Position.read?_inside .inl h

/-- Inside a bracket commas are let through. -/
theorem inside_bracket (h : Turns true t before after) (closer : Char) (below : List Char) :
    Turns commas t (before ++ closer :: below) (after ++ closer :: below) :=
  Position.read?_inside (fun _ => .inr (List.cons_ne_nil _ _)) h

theorem let_commas (h : Turns commas t before after) : Turns true t before after := by
  have hread : Position.read? true (Position.inside ⟨before, .code⟩ []) t.toList =
      some (Position.inside ⟨after, .code⟩ []) :=
    Position.read?_inside (fun _ => .inl rfl) h
  simpa [Position.inside, Turns] using hread

/-- A balanced text in brackets. -/
theorem wrap {closer : Char} {closers : List Char} {opening closing : String}
    (hopening : Turns commas opening [] (closer :: closers)) (h : Balanced t)
    (hclosing : Turns commas closing (closer :: closers) []) :
    Turns commas (opening ++ t ++ closing) [] [] :=
  (hopening.append (h.inside_bracket closer closers)).append hclosing

end Turns

/-! ## Texts without brackets -/

theorem sign_eq_lineEnd_iff : sign c = .lineEnd ↔ c = '\n' ∨ c = '\r' := by
  unfold sign
  split <;> simp_all

theorem sign_eq_backslash_iff : sign c = .backslash ↔ c = '\\' := by
  unfold sign
  split <;> simp_all

theorem turns_of_plain (h : ∀ c ∈ t.toList, sign c = .plain) : Turns commas t [] [] := by
  unfold Turns
  generalize t.toList = cs at h
  induction cs with
  | nil => rfl
  | cons c cs ih =>
    obtain ⟨hc, hcs⟩ := List.forall_mem_cons.1 h
    have hnext : Position.next? commas ⟨[], .code⟩ c = some ⟨[], .code⟩ := by
      simp [Position.next?, hc]
    rw [Position.read?, hnext]
    exact ih hcs

/-! ## Literals -/

/-- The characters may stand in a literal with the given quotation marks. -/
def Quotable (mark : Char) (cs : List Char) : Prop :=
  ∀ (commas : Bool) (closers : List Char),
    Position.read? commas ⟨closers, .literal mark⟩ cs = some ⟨closers, .literal mark⟩

namespace Quotable

variable {mark : Char} {cs ds : List Char}

theorem nil : Quotable mark [] := fun _ _ => rfl

theorem append (hc : Quotable mark cs) (hd : Quotable mark ds) : Quotable mark (cs ++ ds) := by
  intro commas closers
  rw [Position.read?_append, hc]
  exact hd commas closers

theorem flatMap {escape : Char → List Char} (h : ∀ c, Quotable mark (escape c)) :
    ∀ cs : List Char, Quotable mark (cs.flatMap escape)
  | [] => nil
  | c :: cs => (h c).append (flatMap h cs)

/-- A character that does not end the literal, its line or what it means. -/
theorem singleton (hend : sign c ≠ .lineEnd) (hback : sign c ≠ .backslash) (hmark : c ≠ mark) :
    Quotable mark [c] := by
  intro commas closers
  show (Position.next? commas ⟨closers, .literal mark⟩ c).bind some = _
  unfold Position.next?
  dsimp only
  generalize sign c = meaning at *
  cases meaning with
  | lineEnd => exact absurd rfl hend
  | backslash => exact absurd rfl hback
  | quote => simp [hmark]
  | _ => rfl

/-- A character behind a backslash. -/
theorem escaped (h : sign c ≠ .lineEnd) : Quotable mark ['\\', c] := by
  intro commas closers
  show (Position.next? commas ⟨closers, .escape mark⟩ c).bind some = _
  unfold Position.next?
  dsimp only
  generalize sign c = meaning at *
  cases meaning with
  | lineEnd => exact absurd rfl h
  | _ => rfl

theorem turns (h : Quotable mark cs) (hmark : sign mark = .quote) :
    Turns commas (String.ofList (mark :: cs ++ [mark])) [] [] := by
  have hopen : Position.next? commas ⟨[], .code⟩ mark = some ⟨[], .literal mark⟩ := by
    simp [Position.next?, hmark]
  have hclose : Position.next? commas ⟨[], .literal mark⟩ mark = some ⟨[], .code⟩ := by
    simp [Position.next?, hmark]
  unfold Turns
  rw [String.toList_ofList, List.cons_append, Position.read?, hopen]
  show Position.read? commas ⟨[], .literal mark⟩ (cs ++ [mark]) = _
  rw [Position.read?_append, h]
  show Position.read? commas ⟨[], .literal mark⟩ [mark] = _
  rw [Position.read?, hclose]
  rfl

end Quotable

end Script

/-! ## Code -/

namespace Code

/-- The texts of the code turn so, however it is indented. -/
def Turns (commas : Bool) (code : Code) (before after : List Char) : Prop :=
  ∀ (indent : Indent) (levels : Nat),
    Script.Turns commas ((code.shift levels).text indent) before after

variable {commas : Bool} {t opening closing : String} {before between after closers : List Char}
  {closer : Char} {code rest body : Code}

theorem turns_levels (indent : Indent) (depth : Nat) :
    Script.Turns commas (indent.levels depth) [] [] := by
  have hunit : Script.Turns commas indent.unit [] [] := by
    cases indent with
    | spaces width =>
      refine Script.turns_of_plain fun c hc => ?_
      rw [Indent.unit, String.toList_ofList] at hc
      rw [List.eq_of_mem_replicate hc]
      rfl
    | tab => exact Script.turns_of_plain (by simp [Indent.unit, Script.sign])
  unfold Indent.levels
  induction depth with
  | zero => rfl
  | succ depth ih =>
    rw [List.replicate_succ, String.join_cons]
    exact hunit.append ih

theorem turns_line (h : Script.Turns commas t before after) (depth : Nat) :
    Turns commas [.line depth t] before after := by
  intro indent levels
  have hindent : Script.Turns commas (indent.levels (depth + levels)) before before :=
    (turns_levels indent _).inside before
  simpa using hindent.append h

theorem turns_raw (h : Script.Turns commas t before after) :
    Turns commas [.raw t] before after := by
  intro indent levels
  simpa using h

namespace Turns

theorem nil : Turns commas [] [] [] := fun _ _ => rfl

theorem append (h : Turns commas code before between) (hrest : Turns commas rest between after) :
    Turns commas (code ++ rest) before after := by
  intro indent levels
  rw [shift_append, text_append]
  exact (h indent levels).append (hrest indent levels)

theorem deeper (h : Turns commas code before after) :
    Turns commas (Code.deeper code) before after := by
  intro indent levels
  rw [Code.deeper, shift_shift]
  exact h indent (1 + levels)

/-- Balanced code between an opening and a closing line. -/
theorem block (hopening : Script.Turns commas opening [] (closer :: closers))
    (h : Turns true body [] []) (hclosing : Script.Turns commas closing (closer :: closers) []) :
    Turns commas (Code.block opening body closing) [] [] := by
  have hbody : Turns commas (Code.deeper body) (closer :: closers) (closer :: closers) :=
    fun indent levels => (h.deeper indent levels).inside_bracket closer closers
  exact ((turns_line hopening 0).append hbody).append (turns_line hclosing 0)

theorem flatMap {α : Type} {f : α → Code} {xs : List α} (h : ∀ x ∈ xs, Turns commas (f x) [] []) :
    Turns commas (xs.flatMap f) [] [] := by
  induction xs with
  | nil => exact nil
  | cons x xs ih =>
    obtain ⟨hx, hxs⟩ := List.forall_mem_cons.1 h
    exact hx.append (ih hxs)

theorem text (h : Turns commas code before after) (indent : Indent) :
    Script.Turns commas (code.text indent) before after := by
  simpa [shift_zero] using h indent 0

end Turns

end Code

end InterfaceGuards
