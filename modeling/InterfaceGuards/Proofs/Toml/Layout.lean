/-
  Where the strings of TOML values stand.

  * `Stands`: a string stands in a text at a span.
  * `InRow`: one behind the other between two bytes.
  * `Value.Laid`: the strings of a value stand between two bytes, the items of arrays in a row, and
    those of different entries of a table apart.
  * `Entries.Laid.assign?`, `.openTable?`, `.openElement?`: what is read later stands behind.
-/
import InterfaceGuards.Proofs.Toml.Quoted
import Mathlib.Data.List.Pairwise

namespace InterfaceGuards.Toml

/-! ## Strings -/

/-- **A string stands in a text at a span**: what is written there between the delimiters of some
    form spells it. -/
def Stands (doc : List Char) (text : String) (span : Span) : Prop :=
  ∃ (before : List Char) (form : Form) (opening raw after : List Char),
    doc = before ++ (opening ++ raw ++ form.delimiter) ++ after ∧ form.Opens opening ∧
      form.Spells raw text.toList ∧
      span = ⟨byteLength before, byteLength (before ++ (opening ++ raw ++ form.delimiter))⟩

/-- A string takes some bytes. -/
theorem Stands.lt {doc : List Char} {text : String} {span : Span} (h : Stands doc text span) :
    span.start < span.stop := by
  obtain ⟨before, form, opening, raw, after, -, -, -, rfl⟩ := h
  have := form.byteLength_delimiter
  simp only [byteLength_append]
  split at this <;> omega

/-! ## Rows -/

/-- Things that stand one behind the other between two bytes, each where `Q` says. -/
inductive InRow {α : Type} (Q : Nat → Nat → α → Prop) : Nat → Nat → List α → Prop
  | nil {lo hi} : lo ≤ hi → InRow Q lo hi []
  | cons {lo mid hi x xs} : lo ≤ mid → Q lo mid x → InRow Q mid hi xs → InRow Q lo hi (x :: xs)

/-- What stands between two bytes stands between bytes around them. -/
def Widens {α : Type} (Q : Nat → Nat → α → Prop) : Prop :=
  ∀ ⦃lo lo' hi hi' x⦄, lo' ≤ lo → hi ≤ hi' → Q lo hi x → Q lo' hi' x

namespace InRow

variable {α : Type} {Q : Nat → Nat → α → Prop} {lo lo' mid hi hi' : Nat} {xs ys : List α}

theorem le (h : InRow Q lo hi xs) : lo ≤ hi := by
  induction h with
  | nil h => exact h
  | cons h _ _ ih => exact h.trans ih

theorem widens (hQ : Widens Q) : Widens (InRow Q) := by
  intro lo lo' hi hi' xs hlo hhi h
  induction h generalizing lo' with
  | nil h => exact .nil (hlo.trans (h.trans hhi))
  | cons h hx _ ih => exact .cons (hlo.trans h) (hQ hlo le_rfl hx) (ih le_rfl hhi)

theorem mem (hQ : Widens Q) (h : InRow Q lo hi xs) {x : α} (hx : x ∈ xs) : Q lo hi x := by
  induction h with
  | nil => cases hx
  | cons hle hfirst hrest ih =>
    rcases List.mem_cons.1 hx with rfl | hx
    · exact hQ le_rfl hrest.le hfirst
    · exact hQ hle le_rfl (ih hx)

theorem append (h : InRow Q lo mid xs) (h' : InRow Q mid hi ys) (hQ : Widens Q) :
    InRow Q lo hi (xs ++ ys) := by
  induction h with
  | nil hle => exact widens hQ hle le_rfl h'
  | cons hle hx _ ih => exact .cons hle hx (ih h')

theorem split (h : InRow Q lo hi (xs ++ ys)) : ∃ mid, InRow Q lo mid xs ∧ InRow Q mid hi ys := by
  induction xs generalizing lo with
  | nil => exact ⟨lo, .nil le_rfl, h⟩
  | cons x xs ih =>
    cases h with
    | cons hle hx hrest =>
      obtain ⟨mid, hxs, hys⟩ := ih hrest
      exact ⟨mid, .cons hle hx hxs, hys⟩

theorem single {x : α} (h : lo ≤ hi) (hx : Q lo hi x) : InRow Q lo hi [x] :=
  .cons h hx (.nil le_rfl)

/-- Of two things in a row the first one ends where the second one has not begun. -/
theorem pairwise (hQ : Widens Q) (h : InRow Q lo hi xs) :
    xs.Pairwise fun x y => ∃ mid, Q lo mid x ∧ Q mid hi y := by
  induction h with
  | nil => exact .nil
  | cons hle hx hrest ih =>
    refine .cons (fun y hy => ⟨_, hx, hrest.mem hQ hy⟩) (ih.imp ?_)
    rintro x y ⟨mid, hx, hy⟩
    exact ⟨mid, hQ hle le_rfl hx, hy⟩

end InRow

/-! ## Values -/

/-- A string of a value. -/
inductive Value.Has (text : String) (span : Span) : Value → Prop
  | string : Has text span (.string text span)
  | array {headed items v} : v ∈ items → Has text span v → Has text span (.array headed items)
  | table {kind entries e} : e ∈ entries → Has text span e.2 → Has text span (.table kind entries)

/-- No two spans overlap. -/
def Span.Apart (a b : Span) : Prop := a.stop ≤ b.start ∨ b.stop ≤ a.start

/-- The strings of two values stand apart. -/
def Value.Apart (v w : Value) : Prop :=
  ∀ ⦃text span text' span'⦄, v.Has text span → w.Has text' span' → span.Apart span'

/-- Entries with different keys whose strings stand apart. -/
def Separate (e e' : String × Value) : Prop := e.1 ≠ e'.1 ∧ e.2.Apart e'.2

/-- **The strings of a value stand between two bytes of a text**, the items of an array one behind
    the other, and the strings of a table apart from those of its other entries. -/
inductive Value.Laid (doc : List Char) : Nat → Nat → Value → Prop
  | string {lo hi text span} : Stands doc text span → lo ≤ span.start → span.stop ≤ hi →
      Laid doc lo hi (.string text span)
  | integer {lo hi n} : Laid doc lo hi (.integer n)
  | boolean {lo hi b} : Laid doc lo hi (.boolean b)
  | float {lo hi text} : Laid doc lo hi (.float text)
  | datetime {lo hi text} : Laid doc lo hi (.datetime text)
  | array {lo lo' hi hi' headed items} : lo' ≤ lo → hi ≤ hi' → InRow (Laid doc) lo hi items →
      Laid doc lo' hi' (.array headed items)
  | table {lo lo' hi hi' kind} {entries : Entries} : lo' ≤ lo → hi ≤ hi' →
      (∀ e ∈ entries, Laid doc lo hi e.2) → entries.Pairwise Separate →
      Laid doc lo' hi' (.table kind entries)

/-- Entries whose strings stand between two bytes of a text, and apart. -/
structure Entries.Laid (doc : List Char) (lo hi : Nat) (entries : Entries) : Prop where
  laid : ∀ e ∈ entries, e.2.Laid doc lo hi
  separate : entries.Pairwise Separate

/-- A string of some entry. -/
def Entries.Has (text : String) (span : Span) (entries : Entries) : Prop :=
  ∃ e ∈ entries, e.2.Has text span

variable {doc : List Char} {lo mid hi : Nat} {text : String} {span : Span} {v w : Value}
  {entries entries' : Entries}

namespace Value

theorem laid_widens : Widens (Laid doc) := by
  intro lo lo' hi hi' v hlo hhi h
  cases h with
  | string hstands hstart hstop => exact .string hstands (hlo.trans hstart) (hstop.trans hhi)
  | integer => exact .integer
  | boolean => exact .boolean
  | float => exact .float
  | datetime => exact .datetime
  | array hl hh hrow => exact .array (hlo.trans hl) (hh.trans hhi) hrow
  | table hl hh hlaid hseparate => exact .table (hlo.trans hl) (hh.trans hhi) hlaid hseparate

theorem laid_array {headed : Bool} {items : List Value} :
    (array headed items).Laid doc lo hi ↔ InRow (Laid doc) lo hi items := by
  constructor
  · rintro (- | - | - | - | - | ⟨hl, hh, hrow⟩)
    exact InRow.widens laid_widens hl hh hrow
  · exact .array le_rfl le_rfl

theorem laid_table {kind : TableKind} :
    (table kind entries).Laid doc lo hi ↔ entries.Laid doc lo hi := by
  constructor
  · intro h
    cases h with
    | table hl hh hlaid hseparate =>
      exact ⟨fun e he => laid_widens hl hh (hlaid e he), hseparate⟩
  · exact fun h => .table le_rfl le_rfl h.laid h.separate

theorem has_table {kind : TableKind} :
    (table kind entries).Has text span ↔ entries.Has text span := by
  constructor
  · intro h
    cases h with
    | table he hhas => exact ⟨_, he, hhas⟩
  · rintro ⟨e, he, hhas⟩
    exact .table he hhas

/-- The strings of a value that is laid out between two bytes stand there. -/
theorem Has.stands (h : v.Has text span) (hv : v.Laid doc lo hi) :
    Stands doc text span ∧ lo ≤ span.start ∧ span.stop ≤ hi := by
  induction h generalizing lo hi with
  | string =>
    cases hv with
    | string hstands hstart hstop => exact ⟨hstands, hstart, hstop⟩
  | array hmem _ ih => exact ih ((laid_array.1 hv).mem laid_widens hmem)
  | table hmem _ ih => exact ih ((laid_table.1 hv).laid _ hmem)

theorem apart_of_laid (hv : v.Laid doc lo mid) (hw : w.Laid doc mid hi) : v.Apart w :=
  fun _ _ _ _ hx hy => .inl ((hx.stands hv).2.2.trans (hy.stands hw).2.1)

theorem Apart.symm (h : v.Apart w) : w.Apart v := fun _ _ _ _ hx hy => (h hy hx).symm

end Value

instance : Std.Symm Separate := ⟨fun _ _ h => ⟨h.1.symm, h.2.symm⟩⟩

/-- What is in an array whose last value was changed was in the array, unless the change put it
    there. -/
theorem Value.Has.of_last {headed : Bool} {items : List Value} (hlast : items.getLast? = some v)
    (hold : ∀ {text span}, w.Has text span → v.Has text span ∨ mid ≤ span.start)
    (h : (Value.array headed (items.dropLast ++ [w])).Has text span) :
    (Value.array headed items).Has text span ∨ mid ≤ span.start := by
  cases h with
  | array hmem hhas =>
    rcases List.mem_append.1 hmem with hmem | hmem
    · exact .inl (.array (List.dropLast_subset _ hmem) hhas)
    · rw [List.mem_singleton.1 hmem] at hhas
      exact (hold hhas).imp_left (.array (List.mem_of_getLast? hlast))

/-! ## Adding to tables -/

/-- What becomes of entries to which something is added that stands from the byte `mid` on. -/
structure Added (doc : List Char) (lo mid hi : Nat) (entries entries' : Entries) : Prop where
  laid : entries'.Laid doc lo hi
  old : ∀ {text span}, entries'.Has text span → entries.Has text span ∨ mid ≤ span.start

theorem Entries.mem_of_get? {key : String} (h : entries.get? key = some v) :
    (key, v) ∈ entries := by
  obtain ⟨before, after, rfl, -⟩ := List.lookup_eq_some_iff.1 h
  exact List.mem_append_right _ (List.mem_cons_self ..)

namespace Entries.Laid

theorem nil : Entries.Laid doc lo hi [] := ⟨fun _ h => absurd h List.not_mem_nil, .nil⟩

theorem widen (h : entries.Laid doc lo mid) (hhi : mid ≤ hi) : entries.Laid doc lo hi :=
  ⟨fun e he => Value.laid_widens le_rfl hhi (h.laid e he), h.separate⟩

theorem insert {key : String} (h : entries.Laid doc lo mid) (hkey : entries.get? key = none)
    (hv : v.Laid doc mid hi) (hlo : lo ≤ mid) (hhi : mid ≤ hi) :
    Added doc lo mid hi entries (entries.insert key v) := by
  refine ⟨⟨fun e he => ?_, ?_⟩, ?_⟩
  · rcases List.mem_append.1 he with he | he
    · exact Value.laid_widens le_rfl hhi (h.laid e he)
    · rw [List.mem_singleton.1 he]
      exact Value.laid_widens hlo le_rfl hv
  · refine List.pairwise_append.2 ⟨h.separate, List.pairwise_singleton .., fun e he e' he' => ?_⟩
    rw [List.mem_singleton.1 he']
    refine ⟨fun hsame => ?_, Value.apart_of_laid (h.laid e he) hv⟩
    have := List.lookup_eq_none_iff.1 hkey e he
    simp [hsame] at this
  · rintro text span ⟨e, he, hhas⟩
    rcases List.mem_append.1 he with he | he
    · exact .inl ⟨e, he, hhas⟩
    · rw [List.mem_singleton.1 he] at hhas
      exact .inr (hhas.stands hv).2.1

/-- A key has one value. -/
theorem eq_of_get? {key : String} (h : entries.Laid doc lo hi) (hget : entries.get? key = some v)
    {e : String × Value} (he : e ∈ entries) (hkey : e.1 = key) : e.2 = v := by
  by_contra hne
  have hapart := h.separate.forall he (mem_of_get? hget) fun heq => hne (congrArg Prod.snd heq)
  exact hapart.1 hkey

theorem replace {key : String} (h : entries.Laid doc lo mid) (hget : entries.get? key = some v)
    (hw : w.Laid doc lo hi) (hhi : mid ≤ hi)
    (hold : ∀ {text span}, w.Has text span → v.Has text span ∨ mid ≤ span.start) :
    Added doc lo mid hi entries (entries.replace key w) := by
  have hmem {e} (he : e ∈ entries.replace key w) :
      (∃ e₀ ∈ entries, e₀.1 = key ∧ e.2 = w) ∨ e ∈ entries ∧ e.1 ≠ key := by
    obtain ⟨e₀, he₀, rfl⟩ := List.mem_map.1 he
    by_cases hkey : e₀.1 = key
    · exact .inl ⟨e₀, he₀, hkey, by simp [hkey]⟩
    · exact .inr (by simpa [hkey] using he₀)
  -- What is new stands behind all that was there before.
  have hnew {e} (he : e ∈ entries) (hapart : v.Apart e.2) : w.Apart e.2 := by
    intro text span text' span' hx hy
    rcases hold hx with hx | hx
    · exact hapart hx hy
    · exact .inr ((hy.stands (h.laid e he)).2.2.trans hx)
  refine ⟨⟨fun e he => ?_, ?_⟩, ?_⟩
  · rcases hmem he with ⟨e₀, -, -, hv⟩ | ⟨he, -⟩
    · rwa [hv]
    · exact Value.laid_widens le_rfl hhi (h.laid e he)
  · refine List.pairwise_map.2 (h.separate.imp_of_mem fun {a b} ha hb hab => ?_)
    by_cases hakey : a.1 = key <;> by_cases hbkey : b.1 = key
    · exact absurd (hakey.trans hbkey.symm) hab.1
    · have hv := h.eq_of_get? hget ha hakey
      simpa [hakey, hbkey] using ⟨fun h => hbkey h.symm, hnew hb (hv ▸ hab.2)⟩
    · have hv := h.eq_of_get? hget hb hbkey
      simpa [hakey, hbkey] using ⟨hakey, (hnew ha (hv ▸ hab.2.symm)).symm⟩
    · simpa [hakey, hbkey] using hab
  · rintro text span ⟨e, he, hhas⟩
    rcases hmem he with ⟨e₀, he₀, hkey, hv⟩ | ⟨he, -⟩
    · rw [hv] at hhas
      refine (hold hhas).imp_left fun hx => ⟨e₀, he₀, ?_⟩
      rwa [h.eq_of_get? hget he₀ hkey]
    · exact .inl ⟨e, he, hhas⟩

/-- **What is changed somewhere below keeps the layout**, if the change does there. -/
theorem descend? {dotted : Bool} {change : TableKind → Entries → Option Entries} (hhi : mid ≤ hi)
    (hchange : ∀ {lo kind entries entries'}, lo ≤ mid → Entries.Laid doc lo mid entries →
      change kind entries = some entries' → Added doc lo mid hi entries entries')
    {path : List String} {kind : TableKind} (h : entries.Laid doc lo mid) (hlo : lo ≤ mid)
    (hmade : Entries.descend? dotted change path kind entries = some entries') :
    Added doc lo mid hi entries entries' := by
  induction path generalizing lo kind entries entries' with
  | nil => exact hchange hlo h hmade
  | cons key path ih =>
    rw [Entries.descend?] at hmade
    split at hmade
    · rename_i hget
      obtain ⟨below, hbelow, hmade⟩ := Option.bind_eq_some_iff.1 hmade
      cases hmade
      exact h.insert hget (Value.laid_table.2 (ih .nil le_rfl hbelow).laid) hlo hhi
    · rename_i kind below hget
      obtain ⟨-, hmade⟩ := Option.ite_none_left_eq_some.1 hmade
      obtain ⟨below', hbelow, hmade⟩ := Option.bind_eq_some_iff.1 hmade
      cases hmade
      have hadded := ih (Value.laid_table.1 (h.laid _ (mem_of_get? hget))) hlo hbelow
      refine h.replace hget (Value.laid_table.2 hadded.laid) hhi fun hx => ?_
      exact (hadded.old (Value.has_table.1 hx)).imp_left Value.has_table.2
    · rename_i items hget
      split at hmade
      · rename_i kind below hlast
        obtain ⟨below', hbelow, hmade⟩ := Option.bind_eq_some_iff.1 hmade
        cases hmade
        -- The last table goes on; the ones before it end where it begins.
        have hitems : items = items.dropLast ++ [.table kind below] :=
          (List.dropLast_append_getLast? _ hlast).symm
        have hrow := Value.laid_array.1 (h.laid _ (mem_of_get? hget))
        rw [hitems] at hrow
        obtain ⟨start, hfirst, hrest⟩ := hrow.split
        have htable := hrest.mem Value.laid_widens (List.mem_singleton_self _)
        have hadded := ih (Value.laid_table.1 htable) hrest.le hbelow
        have hnew : (Value.table kind below').Laid doc start hi := Value.laid_table.2 hadded.laid
        have hwhole := hfirst.append (.single (hrest.le.trans hhi) hnew) Value.laid_widens
        refine h.replace hget (Value.laid_array.2 hwhole) hhi
          (Value.Has.of_last hlast fun hx => ?_)
        exact (hadded.old (Value.has_table.1 hx)).imp_left Value.has_table.2
      · cases hmade
    · cases hmade

/-- **A value that is read later stands behind** what was there. -/
theorem assign? {kind : TableKind} {path : List String} (h : entries.Laid doc lo mid)
    (hv : v.Laid doc mid hi) (hlo : lo ≤ mid) (hhi : mid ≤ hi)
    (hmade : Entries.assign? kind entries path v = some entries') :
    Added doc lo mid hi entries entries' := by
  unfold Entries.assign? at hmade
  split at hmade
  · cases hmade
  · refine h.descend? hhi (fun {lo kind entries entries'} hlo h hmade => ?_) hlo hmade
    obtain ⟨-, hmade⟩ := Option.ite_none_left_eq_some.1 hmade
    split at hmade
    · cases hmade
    · rename_i hget
      cases hmade
      exact h.insert hget hv hlo hhi

/-- A table that is opened is empty so far, or it was there. -/
theorem openTable? {path : List String} (h : entries.Laid doc lo hi) (hlo : lo ≤ hi)
    (hmade : Entries.openTable? entries path = some entries') :
    Added doc lo hi hi entries entries' := by
  unfold Entries.openTable? at hmade
  split at hmade
  · cases hmade
  · refine h.descend? le_rfl (fun {lo kind entries entries'} hlo h hmade => ?_) hlo hmade
    split at hmade
    · rename_i hget
      cases hmade
      exact h.insert hget (Value.laid_table.2 .nil) hlo le_rfl
    · rename_i below hget
      cases hmade
      refine h.replace hget (Value.laid_table.2 ?_) le_rfl fun hx => .inl ?_
      · exact Value.laid_table.1 (h.laid _ (mem_of_get? hget))
      · exact Value.has_table.2 (Value.has_table.1 hx)
    · cases hmade

/-- The next table of an array is empty so far. -/
theorem openElement? {path : List String} (h : entries.Laid doc lo hi) (hlo : lo ≤ hi)
    (hmade : Entries.openElement? entries path = some entries') :
    Added doc lo hi hi entries entries' := by
  unfold Entries.openElement? at hmade
  split at hmade
  · cases hmade
  · refine h.descend? le_rfl (fun {lo kind entries entries'} hlo h hmade => ?_) hlo hmade
    have hempty : InRow (Value.Laid doc) hi hi [.table .headed []] :=
      .single le_rfl (Value.laid_table.2 .nil)
    split at hmade
    · rename_i hget
      cases hmade
      exact h.insert hget (Value.laid_array.2 hempty) hlo le_rfl
    · rename_i items hget
      cases hmade
      have hrow := Value.laid_array.1 (h.laid _ (mem_of_get? hget))
      refine h.replace hget (Value.laid_array.2 (hrow.append hempty Value.laid_widens)) le_rfl ?_
      intro text span hx
      cases hx with
      | array hv hx =>
        rcases List.mem_append.1 hv with hv | hv
        · exact .inl (.array hv hx)
        · rw [List.mem_singleton.1 hv, Value.has_table] at hx
          obtain ⟨e, he, -⟩ := hx
          cases he
    · cases hmade

end Entries.Laid

end InterfaceGuards.Toml
