/-
  Reports.

  * `Report`: what a run has to say, item by item.
  * `Report.print`: the lines that the items make, with warnings apart.
-/
namespace InterfaceGuards

/-- Something that a report says. -/
inductive ReportItem where
  | heading (text : String)
  | keyValue (key value : String)
  | listItem (text : String)
  | addedItem (text : String)
  | warning (text : String)
  | divider (label : String)
  | preformatted (text : String)
  | newline
deriving DecidableEq, Repr

/-- What a run has to say, item by item. -/
abbrev Report := List ReportItem

/-- What is printed: the output proper, and the warnings. -/
structure Printed where
  output : String
  warnings : String
deriving DecidableEq, Repr

namespace ReportItem

/-- The lines that an item makes. -/
def line : ReportItem → String
  | .heading text => text ++ ":"
  | .keyValue key value => key ++ ": " ++ value
  | .listItem text => "  - " ++ text
  | .addedItem text => "  + " ++ text
  | .warning text => "warning: " ++ text
  | .divider label => "── " ++ label ++ " ──"
  | .preformatted text => text
  | .newline => ""

/-- Whether an item is printed among the warnings. -/
def isWarning : ReportItem → Bool
  | .warning _ => true
  | _ => false

end ReportItem

namespace Report

/-- The lines of several items, each with its end. -/
def linesOf (items : List ReportItem) : String := String.join (items.map fun i => i.line ++ "\n")

/-- What a report prints. -/
def print (r : Report) : Printed :=
  ⟨linesOf (r.filter fun i => !i.isWarning), linesOf (r.filter ReportItem.isWarning)⟩

/-- A number with the noun it counts. -/
def counted (n : Nat) (noun : String) : String :=
  toString n ++ " " ++ noun ++ if n = 1 then "" else "s"

end Report

end InterfaceGuards
