/-
  Comparing two texts line by line.

  * `differences`: the numbered lines at which two texts differ.
  * `mismatch?`: the report of those lines, or nothing when the texts are equal.
-/
import InterfaceGuards.Text.Split

namespace InterfaceGuards.Text

/-- A line number with the two lines found there. -/
structure LineDifference where
  number : Nat
  expected : String
  actual : String
deriving DecidableEq, Repr

/-- What stands for a line that a text does not have. -/
def missingLine : String := "<missing>"

/-- The lines at which two texts differ, in order, counted from one. -/
def differences (expected actual : String) : List LineDifference :=
  let es := lines expected
  let as := lines actual
  (List.range (max es.length as.length)).filterMap fun i =>
    let e := es[i]?.getD missingLine
    let a := as[i]?.getD missingLine
    if e = a then none else some ⟨i + 1, e, a⟩

/-- The report of one difference. -/
def LineDifference.report (d : LineDifference) : String :=
  "Line " ++ toString d.number ++ ":\n  expected: " ++ d.expected ++ "\n  actual:   " ++ d.actual
    ++ "\n"

/-- The report of all differences; nothing when the texts are equal. -/
def mismatch? (expected actual : String) : Option String :=
  if expected = actual then none
  else some ("Content mismatch:\n"
    ++ String.join ((differences expected actual).map LineDifference.report))

end InterfaceGuards.Text
