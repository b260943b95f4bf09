/-
  Where the names of a manifest stand.

  * `Placed`: a string stands at its span, between two bytes.
  * `StructureEntry.Laid`, `AliasEntry.Laid`, `UnitEntry.Laid`: what is listed stands in a row.
  * `reads_unit?`: so it does in what is read from values that are laid out.
  * `Manifest.units_in_row`: the units of a manifest stand in a row in its text.
-/
import InterfaceGuards.Manifest.Load
import InterfaceGuards.Proofs.Result
import InterfaceGuards.Proofs.Toml.Reading

namespace InterfaceGuards

open Toml (Span Spanned Value InRow Widens Stands)

variable {doc : List Char} {lo hi : Nat}

/-! ## Entries -/

/-- A string stands at its span, between two bytes of a text. -/
structure Placed (doc : List Char) (lo hi : Nat) (s : Spanned String) : Prop where
  stands : Stands doc s.value s.span
  start : lo ≤ s.span.start
  stop : s.span.stop ≤ hi

theorem placed_widens : Widens (Placed doc) :=
  fun _ _ _ _ _ hlo hhi h => ⟨h.stands, hlo.trans h.start, h.stop.trans hhi⟩

theorem Placed.le {s : Spanned String} (h : Placed doc lo hi s) : lo ≤ hi :=
  h.start.trans (h.stands.lt.le.trans h.stop)

/-- The name and the type of a member stand between two bytes. -/
structure MemberEntry.Laid (doc : List Char) (lo hi : Nat) (m : MemberEntry) : Prop where
  name : ∀ s ∈ m.name, Placed doc lo hi s
  type : ∀ s ∈ m.type, Placed doc lo hi s

theorem MemberEntry.laid_widens : Widens (MemberEntry.Laid doc) :=
  fun _ _ _ _ _ hlo hhi h =>
    ⟨fun s hs => placed_widens hlo hhi (h.name s hs),
      fun s hs => placed_widens hlo hhi (h.type s hs)⟩

/-- An interface or class stands between two bytes, its type parameters and its members in a
    row. -/
structure StructureEntry.Laid (doc : List Char) (lo hi : Nat) (d : StructureEntry) : Prop where
  name : Placed doc lo hi d.name
  typeParams : InRow (Placed doc) lo hi d.typeParams
  members : InRow (MemberEntry.Laid doc) lo hi d.members

theorem StructureEntry.laid_widens : Widens (StructureEntry.Laid doc) :=
  fun _ _ _ _ _ hlo hhi h => ⟨placed_widens hlo hhi h.name,
    InRow.widens placed_widens hlo hhi h.typeParams,
    InRow.widens MemberEntry.laid_widens hlo hhi h.members⟩

/-- An alias stands between two bytes, its type parameters in a row. -/
structure AliasEntry.Laid (doc : List Char) (lo hi : Nat) (d : AliasEntry) : Prop where
  name : Placed doc lo hi d.name
  type : Placed doc lo hi d.type
  typeParams : InRow (Placed doc) lo hi d.typeParams

theorem AliasEntry.laid_widens : Widens (AliasEntry.Laid doc) :=
  fun _ _ _ _ _ hlo hhi h => ⟨placed_widens hlo hhi h.name, placed_widens hlo hhi h.type,
    InRow.widens placed_widens hlo hhi h.typeParams⟩

/-- A unit stands between two bytes: its declarations of each kind in a row, and the names of
    declarations of different kinds apart. -/
structure UnitEntry.Laid (doc : List Char) (lo hi : Nat) (u : UnitEntry) : Prop where
  path : Placed doc lo hi u.path
  interfaces : InRow (StructureEntry.Laid doc) lo hi u.interfaces
  classes : InRow (StructureEntry.Laid doc) lo hi u.classes
  aliases : InRow (AliasEntry.Laid doc) lo hi u.aliases
  interfaces_classes : ∀ d ∈ u.interfaces, ∀ d' ∈ u.classes, d.name.span.Apart d'.name.span
  interfaces_aliases : ∀ d ∈ u.interfaces, ∀ d' ∈ u.aliases, d.name.span.Apart d'.name.span
  classes_aliases : ∀ d ∈ u.classes, ∀ d' ∈ u.aliases, d.name.span.Apart d'.name.span

theorem UnitEntry.laid_widens : Widens (UnitEntry.Laid doc) :=
  fun _ _ _ _ _ hlo hhi h => ⟨placed_widens hlo hhi h.path,
    InRow.widens StructureEntry.laid_widens hlo hhi h.interfaces,
    InRow.widens StructureEntry.laid_widens hlo hhi h.classes,
    InRow.widens AliasEntry.laid_widens hlo hhi h.aliases,
    h.interfaces_classes, h.interfaces_aliases, h.classes_aliases⟩

/-! ## Reading -/

namespace Manifest

section
variable {α : Type} {Q : Nat → Nat → α → Prop} {read : Value → Option α} {v : Value} {x : α}
  {f : Fields} {name : String}

/-- What is read from a value that stands between two bytes is where `Q` says. -/
def Reads (doc : List Char) (read : Value → Option α) (Q : Nat → Nat → α → Prop) : Prop :=
  ∀ {lo hi v x}, v.Laid doc lo hi → read v = some x → Q lo hi x

theorem reads_spanned? : Reads doc spanned? (Placed doc) := by
  intro lo hi v s hv h
  cases hv with
  | string hstands hstart hstop =>
    cases h
    exact ⟨hstands, hstart, hstop⟩
  | _ => cases h

/-- What a list is read from is read element by element. -/
theorem forall₂_of_mapM? : ∀ {items : List Value} {xs : List α}, items.mapM read = some xs →
    List.Forall₂ (fun v x => read v = some x) items xs
  | [], _, h => by
    cases h
    exact .nil
  | v :: items, xs, h => by
    rw [List.mapM_cons] at h
    obtain ⟨x, hx, h⟩ := Option.bind_eq_some_iff.1 h
    obtain ⟨more, hmore, h⟩ := Option.bind_eq_some_iff.1 h
    cases h
    exact .cons hx (forall₂_of_mapM? hmore)

theorem reads_list? (hread : Reads doc read Q) : Reads doc (list? read) (InRow Q) := by
  intro lo hi v xs hv h
  cases v with
  | array headed items =>
    have hrow := Value.laid_array.1 hv
    have hxs := forall₂_of_mapM? h
    clear hv h
    induction hrow generalizing xs with
    | nil hle =>
      cases hxs
      exact .nil hle
    | cons hle hitem _ ih =>
      cases hxs with
      | cons hx hmore => exact .cons hle (hread hitem hx) (ih hmore)
  | _ => cases h

theorem separate_zip {names : List String} {items : List Value} (hnames : names.Nodup)
    (hitems : items.Pairwise Value.Apart) : (names.zip items).Pairwise Toml.Separate := by
  induction names generalizing items with
  | nil => exact .nil
  | cons name names ih =>
    obtain ⟨hname, hnames⟩ := List.nodup_cons.1 hnames
    cases items with
    | nil => exact .nil
    | cons item items =>
      obtain ⟨hitem, hitems⟩ := List.pairwise_cons.1 hitems
      refine .cons (fun e he => ?_) (ih hnames hitems)
      obtain ⟨hmem, hmem'⟩ := List.of_mem_zip he
      have hne : name ≠ e.1 := fun h => hname (h ▸ hmem)
      exact ⟨hne, hitem _ hmem'⟩

/-- The fields of a value are laid out as it is. -/
theorem laid_of_ofValue? {names : List String} (hnames : names.Nodup) (hv : v.Laid doc lo hi)
    (h : Fields.ofValue? names v = some f) : Toml.Entries.Laid doc lo hi f.values := by
  cases v with
  | table kind entries =>
    obtain ⟨-, h⟩ := Option.ite_none_right_eq_some.1 h
    cases h
    exact Value.laid_table.1 hv
  | array headed items =>
    cases h
    have hrow := Value.laid_array.1 hv
    refine ⟨fun e he => hrow.mem Value.laid_widens (List.of_mem_zip he).2, separate_zip hnames ?_⟩
    refine (hrow.pairwise Value.laid_widens).imp fun {v w} h => ?_
    obtain ⟨mid, hv, hw⟩ := h
    exact Value.apart_of_laid hv hw
  | _ => cases h

/-- A string of a field is one of the value. -/
theorem has_of_ofValue? {names : List String} (h : Fields.ofValue? names v = some f)
    {text : String} {span : Span} (hf : Toml.Entries.Has text span f.values) : v.Has text span := by
  obtain ⟨e, he, hhas⟩ := hf
  cases v with
  | table kind entries =>
    obtain ⟨-, h⟩ := Option.ite_none_right_eq_some.1 h
    cases h
    exact .table he hhas
  | array headed items =>
    cases h
    exact .array (List.of_mem_zip he).2 hhas
  | _ => cases h

theorem Reads.required (hread : Reads doc read Q) (hf : Toml.Entries.Laid doc lo hi f.values)
    (h : f.required? name read = some x) : Q lo hi x := by
  obtain ⟨v, hget, h⟩ := Option.bind_eq_some_iff.1 h
  exact hread (hf.laid _ (Toml.Entries.mem_of_get? hget)) h

theorem Reads.optional (hread : Reads doc read Q) (hf : Toml.Entries.Laid doc lo hi f.values)
    {made : Option α} (h : f.optional? name read = some made) : ∀ x ∈ made, Q lo hi x := by
  unfold Fields.optional? at h
  split at h
  · obtain ⟨-, h⟩ := Option.ite_none_right_eq_some.1 h
    cases h
    exact fun x hx => by cases hx
  · rename_i hget
    obtain ⟨x, hx, h⟩ := Option.map_eq_some_iff.1 h
    cases h
    rintro _ ⟨⟩
    exact hread (hf.laid _ (Toml.Entries.mem_of_get? hget)) hx

theorem Reads.withDefault {made : List α} (hread : Reads doc read Q)
    (hf : Toml.Entries.Laid doc lo hi f.values) (hle : lo ≤ hi)
    (h : f.withDefault? name (list? read) [] = some made) : InRow Q lo hi made := by
  unfold Fields.withDefault? at h
  split at h
  · cases h
    exact .nil hle
  · rename_i hget
    exact reads_list? hread (hf.laid _ (Toml.Entries.mem_of_get? hget)) h

/-- What is read has a name that is a string of the value. -/
def Names (read : Value → Option α) (nameOf : α → Spanned String) : Prop :=
  ∀ {v x}, read v = some x → v.Has (nameOf x).value (nameOf x).span

theorem names_spanned? : Names spanned? id := by
  intro v s h
  cases v with
  | string text span =>
    cases h
    exact .string
  | _ => cases h

theorem Names.of_withDefault {nameOf : α → Spanned String} {made : List α}
    (hnames : Names read nameOf) (h : f.withDefault? name (list? read) [] = some made)
    (hx : x ∈ made) : ∃ v, f.get? name = some v ∧ v.Has (nameOf x).value (nameOf x).span := by
  unfold Fields.withDefault? at h
  split at h
  · cases h
    cases hx
  · rename_i v hget
    cases v with
    | array headed items =>
      change items.mapM read = some made at h
      obtain ⟨item, hitem, hread⟩ := exists_of_mem_forall₂ (forall₂_of_mapM? h) hx
      exact ⟨_, hget, .array hitem (hnames hread)⟩
    | _ => cases h

/-- Names that are read from different fields stand apart. -/
theorem apart_of_fields {β : Type} {read' : Value → Option β} {nameOf : α → Spanned String}
    {nameOf' : β → Spanned String} {name' : String} {xs : List α} {ys : List β}
    (hf : Toml.Entries.Laid doc lo hi f.values) (hne : name ≠ name') (hread : Names read nameOf)
    (hread' : Names read' nameOf') (hxs : f.withDefault? name (list? read) [] = some xs)
    (hys : f.withDefault? name' (list? read') [] = some ys) :
    ∀ x ∈ xs, ∀ y ∈ ys, (nameOf x).span.Apart (nameOf' y).span := by
  intro x hx y hy
  obtain ⟨v, hv, hxv⟩ := hread.of_withDefault hxs hx
  obtain ⟨w, hw, hyw⟩ := hread'.of_withDefault hys hy
  have hv := Toml.Entries.mem_of_get? hv
  have hw := Toml.Entries.mem_of_get? hw
  have hentries : (name, v) ≠ (name', w) := fun h => hne (congrArg Prod.fst h)
  exact (hf.separate.forall hv hw hentries).2 hxv hyw

end

/-! ## Entries from values -/

theorem reads_member? : Reads doc member? (MemberEntry.Laid doc) := by
  intro lo hi v m hv h
  obtain ⟨f, hf, h⟩ := Option.bind_eq_some_iff.1 h
  obtain ⟨name, hname, h⟩ := Option.bind_eq_some_iff.1 h
  obtain ⟨type, htype, h⟩ := Option.bind_eq_some_iff.1 h
  obtain ⟨optional, -, h⟩ := Option.bind_eq_some_iff.1 h
  obtain ⟨kind, -, h⟩ := Option.bind_eq_some_iff.1 h
  cases h
  have hf := laid_of_ofValue? (by decide) hv hf
  exact ⟨reads_spanned?.optional hf hname, reads_spanned?.optional hf htype⟩

theorem reads_structure? : Reads doc structure? (StructureEntry.Laid doc) := by
  intro lo hi v d hv h
  obtain ⟨f, hf, h⟩ := Option.bind_eq_some_iff.1 h
  obtain ⟨name, hname, h⟩ := Option.bind_eq_some_iff.1 h
  obtain ⟨params, hparams, h⟩ := Option.bind_eq_some_iff.1 h
  obtain ⟨members, hmembers, h⟩ := Option.bind_eq_some_iff.1 h
  cases h
  have hf := laid_of_ofValue? (by decide) hv hf
  have hname := reads_spanned?.required hf hname
  exact ⟨hname, reads_spanned?.withDefault hf hname.le hparams,
    reads_member?.withDefault hf hname.le hmembers⟩

theorem reads_alias? : Reads doc alias? (AliasEntry.Laid doc) := by
  intro lo hi v d hv h
  obtain ⟨f, hf, h⟩ := Option.bind_eq_some_iff.1 h
  obtain ⟨name, hname, h⟩ := Option.bind_eq_some_iff.1 h
  obtain ⟨type, htype, h⟩ := Option.bind_eq_some_iff.1 h
  obtain ⟨params, hparams, h⟩ := Option.bind_eq_some_iff.1 h
  cases h
  have hf := laid_of_ofValue? (by decide) hv hf
  have hname := reads_spanned?.required hf hname
  exact ⟨hname, reads_spanned?.required hf htype,
    reads_spanned?.withDefault hf hname.le hparams⟩

theorem has_of_required {v : Value} {names : List String} {f : Fields} {name : String}
    {s : Spanned String} (hf : Fields.ofValue? names v = some f)
    (h : f.required? name spanned? = some s) : v.Has s.value s.span := by
  obtain ⟨w, hget, h⟩ := Option.bind_eq_some_iff.1 h
  exact has_of_ofValue? hf ⟨_, Toml.Entries.mem_of_get? hget, names_spanned? h⟩

theorem names_structure? : Names structure? StructureEntry.name := by
  intro v d h
  obtain ⟨f, hf, h⟩ := Option.bind_eq_some_iff.1 h
  obtain ⟨name, hname, h⟩ := Option.bind_eq_some_iff.1 h
  obtain ⟨params, -, h⟩ := Option.bind_eq_some_iff.1 h
  obtain ⟨members, -, h⟩ := Option.bind_eq_some_iff.1 h
  cases h
  exact has_of_required hf hname

theorem names_alias? : Names alias? AliasEntry.name := by
  intro v d h
  obtain ⟨f, hf, h⟩ := Option.bind_eq_some_iff.1 h
  obtain ⟨name, hname, h⟩ := Option.bind_eq_some_iff.1 h
  obtain ⟨type, -, h⟩ := Option.bind_eq_some_iff.1 h
  obtain ⟨params, -, h⟩ := Option.bind_eq_some_iff.1 h
  cases h
  exact has_of_required hf hname

theorem reads_unit? : Reads doc unit? (UnitEntry.Laid doc) := by
  intro lo hi v u hv h
  obtain ⟨f, hf, h⟩ := Option.bind_eq_some_iff.1 h
  obtain ⟨path, hpath, h⟩ := Option.bind_eq_some_iff.1 h
  obtain ⟨interfaces, hinterfaces, h⟩ := Option.bind_eq_some_iff.1 h
  obtain ⟨classes, hclasses, h⟩ := Option.bind_eq_some_iff.1 h
  obtain ⟨aliases, haliases, h⟩ := Option.bind_eq_some_iff.1 h
  cases h
  have hf := laid_of_ofValue? (by decide) hv hf
  have hpath := reads_spanned?.required hf hpath
  exact ⟨hpath, reads_structure?.withDefault hf hpath.le hinterfaces,
    reads_structure?.withDefault hf hpath.le hclasses,
    reads_alias?.withDefault hf hpath.le haliases,
    apart_of_fields hf (by decide) names_structure? names_structure? hinterfaces hclasses,
    apart_of_fields hf (by decide) names_structure? names_alias? hinterfaces haliases,
    apart_of_fields hf (by decide) names_structure? names_alias? hclasses haliases⟩

/-- **The units of a manifest stand in a row in its text.** -/
theorem units_in_row {text : String} {m : Manifest}
    (h : (Toml.parse? text).bind ofToml? = some m) :
    InRow (UnitEntry.Laid text.toList) 0 text.utf8ByteSize m.units := by
  obtain ⟨entries, hentries, h⟩ := Option.bind_eq_some_iff.1 h
  obtain ⟨f, hf, h⟩ := Option.bind_eq_some_iff.1 h
  obtain ⟨generator, -, h⟩ := Option.bind_eq_some_iff.1 h
  obtain ⟨units, hunits, h⟩ := Option.bind_eq_some_iff.1 h
  cases h
  have hlaid : (Value.table .headed entries).Laid text.toList 0 text.utf8ByteSize :=
    Value.laid_table.2 (Toml.laid_of_parse? hentries)
  exact reads_unit?.withDefault (laid_of_ofValue? (by decide) hlaid hf) (Nat.zero_le _) hunits

end Manifest

end InterfaceGuards
