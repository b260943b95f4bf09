/-
  Decimal texts of doubles.

  * `Double.ofText?`: the double nearest to a decimal with an optional sign, fraction and exponent.
-/
import InterfaceGuards.Number.Double

namespace InterfaceGuards.Double

/-- The whole number that decimal digits denote. -/
def natOfDigits? (digits : List Char) : Option Nat :=
  if digits.all Char.isDigit then
    some (digits.foldl (fun n c => 10 * n + (c.toNat - '0'.toNat)) 0)
  else none

/-- A leading sign, and what follows it. -/
def splitSign : List Char → Bool × List Char
  | '-' :: rest => (true, rest)
  | '+' :: rest => (false, rest)
  | cs => (false, cs)

/-- The exponent that a text is, without its letter. -/
def exponentOf? (cs : List Char) : Option Int :=
  let (negative, digits) := splitSign cs
  if digits.isEmpty then none
  else (natOfDigits? digits).map fun n => if negative then -(n : Int) else n

/-- The double nearest to `± body`, a decimal without a sign. -/
def unsigned? (negative : Bool) (body : List Char) : Option Double := do
  let isE := fun c => c == 'e' || c == 'E'
  let mantissa := body.takeWhile fun c => !isE c
  let exponent ←
    match body.drop mantissa.length with
    | [] => some 0
    | _ :: rest => exponentOf? rest
  let whole := mantissa.takeWhile (· ≠ '.')
  let fraction := (mantissa.drop whole.length).tail
  if whole.isEmpty && fraction.isEmpty then none
  else do
    let digits ← natOfDigits? (whole ++ fraction)
    some (ofDecimal negative digits (exponent - fraction.length))

/-- The double that a text denotes. -/
def ofText? (text : String) : Option Double :=
  let (negative, body) := splitSign text.toList
  if body = "inf".toList then some (.infinite negative)
  else if body = "NaN".toList then some .nan
  else unsigned? negative body

end InterfaceGuards.Double
