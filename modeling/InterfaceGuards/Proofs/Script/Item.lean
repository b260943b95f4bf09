/-
  Records are object literals, and their items are separated by commas.

  * `Expr.items`, `Expr.objectText`: what stands between the braces of a record, and its text with
    one comma between any two of them; `written_record` says that this is how a record is written.
  * `Expr.Fits`: what is spliced into an expression is balanced; `single_of_fits`: then the
    expression is, and no comma stands outside its brackets.
  * `Expr.Holds`: an expression stands in another; then its text is part of that of the other.
-/
import InterfaceGuards.Proofs.Script.Record
import InterfaceGuards.Proofs.Script.Spelling

namespace InterfaceGuards.Script

/-- A text is part of another. -/
def Part (t whole : String) : Prop := t.toList <:+: whole.toList

theorem Part.trans {t u v : String} (h : Part t u) (h' : Part u v) : Part t v :=
  List.IsInfix.trans h h'

theorem part_append (front t back : String) : Part t (front ++ t ++ back) := by
  unfold Part
  rw [String.toList_append, String.toList_append]
  exact List.infix_append ..

theorem part_append_left (t back : String) : Part t (t ++ back) := by
  simpa using part_append "" t back

theorem part_append_right (front t : String) : Part t (front ++ t) := by
  simpa using part_append front t ""

namespace Expr

variable {indent : Code.Indent} {depth : Nat} {entries : List (String × Expr)}
  {spread cast : Option String} {e e' : Expr}

/-- The text of an expression whose lines stand so many levels deep. -/
def written (indent : Code.Indent) (depth : Nat) (e : Expr) : String :=
  (Code.shift depth e.code).text indent

/-- The text of an entry: its name, a colon and its value. -/
def entryText (indent : Code.Indent) (depth : Nat) (entry : String × Expr) : String :=
  indent.levels (depth + 1) ++ (Text.doubleQuoted entry.1 ++ ": ") ++
    entry.2.written indent (depth + 1)

/-- The text for the entries of another object. -/
def spreadText (indent : Code.Indent) (depth : Nat) (object : String) : String :=
  indent.levels (depth + 1) ++ ("..." ++ object)

/-- What a record consists of: one text for each entry, one for the entries of another object. -/
def items (indent : Code.Indent) (depth : Nat) (entries : List (String × Expr))
    (spread : Option String) : List String :=
  entries.map (entryText indent depth) ++ (spread.map (spreadText indent depth)).toList

/-- Items on lines of their own, with one comma between any two. -/
def separated (items : List String) : String :=
  Text.joinWith ",\n" items ++ if items.isEmpty then "" else "\n"

/-- The object literal of a record. -/
def objectText (indent : Code.Indent) (depth : Nat) (entries : List (String × Expr))
    (spread : Option String) : String :=
  "\x7b\n" ++ separated (items indent depth entries spread) ++ (indent.levels depth ++ "\x7d")

theorem separated_nil : separated [] = "" := rfl

theorem separated_cons (item : String) (rest : List String) :
    separated (item :: rest) =
      item ++ (if rest.isEmpty then "\n" else ",\n") ++ separated rest := by
  cases rest with
  | nil => simp [separated, Text.joinWith, Text.intercalate]
  | cons next rest =>
    rw [← String.toList_inj]
    simp [separated, Text.joinWith, Text.intercalate]

/-- Entries are written as items, each with the comma behind it. -/
theorem text_entriesCode (atEnd : Bool) (tail : List String) (h : atEnd = tail.isEmpty)
    (entries : List (String × Expr)) :
    (Code.shift depth (entriesCode atEnd entries)).text indent ++ separated tail =
      separated (entries.map (entryText indent depth) ++ tail) := by
  induction entries with
  | nil => simp [entriesCode]
  | cons entry rest ih =>
    have hend : (Code.shift depth (entryEnd (atEnd && rest.isEmpty))).text indent =
        if (rest.map (entryText indent depth) ++ tail).isEmpty then "\n" else ",\n" := by
      rw [h]
      cases rest <;> cases tail <;> simp [entryEnd, Code.shift, Code.text]
    rw [List.map_cons, List.cons_append, separated_cons, ← ih, ← hend]
    simp [entriesCode, entryText, written, Code.deeper, Code.shift_shift, Nat.add_comm 1,
      String.append_assoc]

/-- **A record is an object literal** that is sealed, frozen and perhaps cast. -/
theorem written_record : written indent depth (.record entries spread cast) =
    "Object.freeze(Object.seal(" ++
      (objectText indent depth entries spread ++ (Code.shift depth (castCode cast)).text indent) ++
      "))" := by
  have hspread : (Code.shift depth (spreadCode spread)).text indent =
      separated (spread.map (spreadText indent depth)).toList := by
    cases spread with
    | none => rfl
    | some object =>
      simp [spreadCode, separated_cons, separated_nil, spreadText, Nat.add_comm 1,
        String.append_assoc]
  have hitems : (Code.shift depth (entriesCode spread.isNone entries)).text indent ++
      separated (spread.map (spreadText indent depth)).toList =
        separated (items indent depth entries spread) :=
    text_entriesCode _ _ (by cases spread <;> rfl) entries
  have hcode : written indent depth (.record entries spread cast) =
      "Object.freeze(Object.seal(\x7b\n" ++
        (separated (items indent depth entries spread) ++ (indent.levels depth ++ "\x7d")) ++
          ((Code.shift depth (castCode cast)).text indent ++ "))") := by
    rw [← hitems, ← hspread]
    simp [written, Expr.code, String.append_assoc]
  have hopen : "Object.freeze(Object.seal(\x7b\n" = "Object.freeze(Object.seal(" ++ "\x7b\n" := rfl
  rw [hcode, hopen, objectText]
  simp only [String.append_assoc]

/-! ### Balance -/

/-- What is spliced into an expression fits: the objects are single items, and the types are
    balanced. -/
abbrev Fits (e : Expr) : Prop := e.Splices Single Balanced

theorem single_entryText (entry : String × Expr)
    (h : Single (entry.2.written indent (depth + 1))) : Single (entryText indent depth entry) := by
  have hcolon : Single ": " := rfl
  exact ((Code.turns_levels indent _).append ((turns_doubleQuoted _).append hcolon)).append h

theorem single_items
    (hentries : ∀ entry ∈ entries, Single (entry.2.written indent (depth + 1)))
    (hspread : ∀ object ∈ spread, Single object) :
    ∀ item ∈ items indent depth entries spread, Single item := by
  intro item hitem
  rcases List.mem_append.1 hitem with hitem | hitem
  · obtain ⟨entry, hentry, rfl⟩ := List.mem_map.1 hitem
    exact single_entryText entry (hentries entry hentry)
  · obtain ⟨object, hobject, rfl⟩ := Option.map_eq_some_iff.1 (Option.mem_toList.1 hitem)
    have hdots : Single "..." := rfl
    exact (Code.turns_levels indent _).append (hdots.append (hspread object hobject))

theorem balanced_separated : ∀ {items : List String}, (∀ item ∈ items, Single item) →
    Balanced (separated items)
  | [], _ => rfl
  | item :: rest, h => by
    obtain ⟨hitem, hrest⟩ := List.forall_mem_cons.1 h
    have hend : Balanced (if rest.isEmpty then "\n" else ",\n") := by split_ifs <;> rfl
    rw [separated_cons]
    exact (hitem.let_commas.append hend).append (balanced_separated hrest)

/-- **The commas of an object literal stand inside its braces**, and between its items. -/
theorem single_objectText (h : ∀ item ∈ items indent depth entries spread, Single item) :
    Single (objectText indent depth entries spread) := by
  have hopen : Turns false "\x7b\n" [] ['\x7d'] := rfl
  have hclose : Turns false "\x7d" ['\x7d'] [] := rfl
  exact hopen.wrap (balanced_separated h)
    (((Code.turns_levels indent depth).inside _).append hclose)

theorem single_record (h : ∀ item ∈ items indent depth entries spread, Single item)
    (hcast : ∀ type ∈ cast, Balanced type) :
    Single (written indent depth (.record entries spread cast)) := by
  have hopen : Turns false "Object.freeze(Object.seal(" [] [')', ')'] := rfl
  have hclose : Turns false "))" [')', ')'] [] := rfl
  have hend : Balanced ((Code.shift depth (castCode cast)).text indent) := by
    cases cast with
    | none => rfl
    | some type =>
      have has : Balanced " as " := rfl
      exact Code.turns_raw (has.append (hcast type rfl)) indent depth
  rw [written_record]
  exact hopen.wrap ((single_objectText h).let_commas.append hend) hclose

/-- **The text of an expression is balanced**, with no comma outside its brackets, if what is
    spliced into it fits. -/
theorem single_of_fits (h : e.Fits) :
    ∀ (indent : Code.Indent) (depth : Nat), Single (e.written indent depth) := by
  induction h with
  | newDate => exact Code.turns_raw (t := "new Date(0)") rfl
  | emptyArray => exact Code.turns_raw (t := "[]") rfl
  | literal value => exact Code.turns_raw (turns_expression value)
  | zero kind => exact Code.turns_raw (turns_zeroValue kind)
  | undefined => exact Code.turns_raw (t := "undefined") rfl
  | record _ hspread hcast ih =>
    intro indent depth
    exact single_record (single_items (fun entry hentry => ih entry hentry indent _) hspread) hcast

/-! ### Nesting -/

/-- An expression stands in another, inside so many records. -/
inductive Holds : Expr → Nat → Expr → Prop
  | here (e : Expr) : Holds e 0 e
  | entry {entries : List (String × Expr)} {spread cast : Option String} {name : String}
      {value e : Expr} {depth : Nat} : (name, value) ∈ entries → Holds value depth e →
      Holds (.record entries spread cast) (depth + 1) e

theorem fits_of_holds {k : Nat} (h : e.Fits) (hh : e.Holds k e') : e'.Fits := by
  induction hh with
  | here => exact h
  | entry hmem _ ih =>
    cases h with
    | record hentries => exact ih (hentries _ hmem)

theorem part_separated {item : String} :
    ∀ {items : List String}, item ∈ items → Part item (separated items)
  | first :: rest, h => by
    rw [separated_cons]
    rcases List.mem_cons.1 h with rfl | h
    · rw [String.append_assoc]
      exact part_append_left _ _
    · exact (part_separated h).trans (part_append_right _ _)

theorem part_objectText : Part (objectText indent depth entries spread)
    (written indent depth (.record entries spread cast)) := by
  rw [written_record]
  exact (part_append_left _ _).trans (part_append _ _ _)

/-- **The text of an expression is part of that of the expression it stands in.** -/
theorem Holds.part {k : Nat} (h : e.Holds k e') :
    ∀ depth : Nat, Part (e'.written indent (depth + k)) (e.written indent depth) := by
  induction h with
  | here => exact fun depth => List.infix_rfl
  | @entry entries spread _ name value _ k hmem _ ih =>
    intro depth
    have hitem : entryText indent depth (name, value) ∈ items indent depth entries spread :=
      List.mem_append_left _ (List.mem_map_of_mem hmem)
    have hvalue : Part (value.written indent (depth + 1)) (entryText indent depth (name, value)) :=
      part_append_right _ _
    have hinner := ih (depth + 1)
    rw [Nat.add_right_comm, Nat.add_assoc] at hinner
    exact ((hinner.trans hvalue).trans (part_separated hitem)).trans
      ((part_append _ _ _).trans part_objectText)

end Expr

end InterfaceGuards.Script
