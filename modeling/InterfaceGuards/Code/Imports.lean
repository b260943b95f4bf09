/-
  Imported symbols by module.

  * `Imports`: modules with their symbols, both in the order of their first mention.
  * `Imports.add`, `addAll`, `merge`: mentioning further symbols.
-/
namespace InterfaceGuards.Code

/-- Puts an element at the end of a list that does not hold it yet. -/
def appendNew {α : Type} [DecidableEq α] (xs : List α) (x : α) : List α :=
  if x ∈ xs then xs else xs ++ [x]

/-- Modules with the symbols imported from them, both in the order of their first mention. -/
structure Imports where
  entries : List (String × List String)
deriving DecidableEq, Repr

namespace Imports

/-- No module. -/
def empty : Imports := ⟨[]⟩

/-- The entries after several symbols of a module were mentioned. -/
def addTo (module : String) (symbols : List String) :
    List (String × List String) → List (String × List String)
  | [] => [(module, symbols.foldl appendNew [])]
  | (m, known) :: rest =>
    if m = module then (m, symbols.foldl appendNew known) :: rest
    else (m, known) :: addTo module symbols rest

/-- Mentions several symbols of a module; the module is mentioned even when there are none. -/
def addAll (imports : Imports) (module : String) (symbols : List String) : Imports :=
  ⟨addTo module symbols imports.entries⟩

/-- Mentions a symbol of a module. -/
def add (imports : Imports) (module symbol : String) : Imports := imports.addAll module [symbol]

/-- Mentions all that another collection holds, in its order. -/
def merge (imports other : Imports) : Imports :=
  other.entries.foldl (fun acc (module, symbols) => acc.addAll module symbols) imports

/-- The symbols of a module, if it was mentioned. -/
def symbols? (imports : Imports) (module : String) : Option (List String) :=
  imports.entries.lookup module

/-- Whether a module was mentioned. -/
def hasModule (imports : Imports) (module : String) : Bool := (imports.symbols? module).isSome

/-- Whether a symbol of a module was mentioned. -/
def hasSymbol (imports : Imports) (module symbol : String) : Bool :=
  match imports.symbols? module with
  | some symbols => symbols.contains symbol
  | none => false

/-- The number of modules. -/
def size (imports : Imports) : Nat := imports.entries.length

/-- Whether no module was mentioned. -/
def isEmpty (imports : Imports) : Bool := imports.entries.isEmpty

end Imports

end InterfaceGuards.Code
