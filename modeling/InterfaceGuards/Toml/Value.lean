/-
  Values of a TOML document.

  * `Span`, `Spanned`: where something stands in the text, in bytes.
  * `Value`: strings with their spans, numbers, arrays and tables.
  * `Table.assign?`, `openTable?`, `openElement?`: what a key/value pair and the two kinds of
    table header add to a table, unless the table may not be added to.

  A table remembers how it came about, which decides what may still be added:
  an inline table is closed, a table with a header of its own is open only to
  what stands below that header, and one made by dotted keys only to dotted keys
  and to headers of tables inside it.
-/
import InterfaceGuards.Text.Split

namespace InterfaceGuards.Toml

/-- A part of a text, from one byte up to another. -/
structure Span where
  start : Nat
  stop : Nat
deriving DecidableEq, Repr

/-- A value with its place in the text. -/
structure Spanned (α : Type) where
  value : α
  span : Span
deriving DecidableEq, Repr

/-- How a table came about: by the header of a table inside it, by a header of its own, by dotted
    keys, or inline. -/
inductive TableKind where
  | implied
  | headed
  | dotted
  | inlined
deriving DecidableEq, Repr

/-- A value.  The value of a float or a date is not looked into.  An array may be one of tables
    that have headers of their own. -/
inductive Value where
  | string (text : String) (span : Span)
  | integer (value : Int)
  | boolean (value : Bool)
  | float (text : String)
  | datetime (text : String)
  | array (headed : Bool) (items : List Value)
  | table (kind : TableKind) (entries : List (String × Value))
deriving Repr, Inhabited

/-- The entries of a table, in order. -/
abbrev Entries := List (String × Value)

namespace Entries

/-- The value of a key. -/
def get? (entries : Entries) (key : String) : Option Value := List.lookup key entries

/-- The entries with another value for a key that is there. -/
def replace (entries : Entries) (key : String) (value : Value) : Entries :=
  entries.map fun (k, v) => if k = key then (k, value) else (k, v)

/-- The entries with a value for a new key. -/
def insert (entries : Entries) (key : String) (value : Value) : Entries :=
  entries ++ [(key, value)]

/-- Changes the table that a path leads to.

    Tables that are missing on the way are made: by dotted keys (`dotted`) or by a header.  An
    array of headed tables stands for its last one.  The way is closed by an inline table, by
    anything that is no table and, for dotted keys, by a table with a header of its own. -/
def descend? (dotted : Bool) (change : TableKind → Entries → Option Entries) :
    List String → TableKind → Entries → Option Entries
  | [], kind, entries => change kind entries
  | key :: path, _, entries =>
    match entries.get? key with
    | none => do
      let kind := if dotted then .dotted else .implied
      let below ← descend? dotted change path kind []
      some (entries.insert key (.table kind below))
    | some (.table kind below) =>
      if kind = .inlined ∨ (dotted ∧ kind = .headed) then none
      else do
        let below ← descend? dotted change path kind below
        some (entries.replace key (.table kind below))
    | some (.array true items) =>
      match items.getLast? with
      | some (.table kind below) => do
        let below ← descend? dotted change path kind below
        some (entries.replace key (.array true (items.dropLast ++ [.table kind below])))
      | _ => none
    | some _ => none

/-- Adds a value under dotted keys; the last key must be new, and the table it goes to must be the
    one at hand or made by dotted keys. -/
def assign? (kind : TableKind) (entries : Entries) (path : List String) (value : Value) :
    Option Entries :=
  match path.getLast? with
  | none => none
  | some key =>
    descend? true (fun kind below =>
      if kind = .dotted ↔ path.dropLast = [] then none
      else match below.get? key with
        | some _ => none
        | none => some (below.insert key value))
      path.dropLast kind entries

/-- Opens a table by its header; it must be new or only implied so far. -/
def openTable? (entries : Entries) (path : List String) : Option Entries :=
  match path.getLast? with
  | none => none
  | some key =>
    descend? false (fun _ above =>
      match above.get? key with
      | none => some (above.insert key (.table .headed []))
      | some (.table .implied below) => some (above.replace key (.table .headed below))
      | some _ => none)
      path.dropLast .headed entries

/-- Opens the next table of an array of tables by its header. -/
def openElement? (entries : Entries) (path : List String) : Option Entries :=
  match path.getLast? with
  | none => none
  | some key =>
    descend? false (fun _ above =>
      match above.get? key with
      | none => some (above.insert key (.array true [.table .headed []]))
      | some (.array true items) =>
        some (above.replace key (.array true (items ++ [.table .headed []])))
      | some _ => none)
      path.dropLast .headed entries

end Entries

end InterfaceGuards.Toml
