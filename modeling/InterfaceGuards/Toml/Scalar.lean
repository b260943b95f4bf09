/-
  Unquoted TOML values.

  * `Scalar.ofText?`: the boolean, number or date that a run of characters denotes.
-/
import InterfaceGuards.Toml.Value

namespace InterfaceGuards.Toml.Scalar

/-- Whether an underscore stands between two digits wherever there is one, and something is
    there. -/
def wellSpaced (isDigit : Char → Bool) (digits : List Char) : Bool :=
  (Text.splitOn '_' digits).all fun group => !group.isEmpty && group.all isDigit

/-- The digits of a base. -/
def isDigitOf (base : Nat) (c : Char) : Bool :=
  if base = 16 then c.isDigit || ('a' ≤ c && c ≤ 'f') || ('A' ≤ c && c ≤ 'F')
  else '0' ≤ c && c.toNat < '0'.toNat + base

/-- The value of a digit. -/
def digitValue (c : Char) : Nat :=
  if c.isDigit then c.toNat - '0'.toNat
  else if 'a' ≤ c then c.toNat - 'a'.toNat + 10
  else c.toNat - 'A'.toNat + 10

/-- The whole number that digits with underscores denote in a base. -/
def natOf? (base : Nat) (digits : List Char) : Option Nat :=
  if wellSpaced (isDigitOf base) digits then
    some ((digits.filter (· ≠ '_')).foldl (fun n c => n * base + digitValue c) 0)
  else none

/-- Decimal digits without a needless zero in front. -/
def decimal? (digits : List Char) : Option Nat :=
  match digits with
  | '0' :: _ :: _ => none
  | _ => natOf? 10 digits

/-- A sign, and what follows it. -/
def splitSign : List Char → Option Bool × List Char
  | '+' :: rest => (some false, rest)
  | '-' :: rest => (some true, rest)
  | cs => (none, cs)

/-- The integer that a text denotes. -/
def integer? (cs : List Char) : Option Int :=
  match cs with
  | '0' :: 'x' :: digits => (natOf? 16 digits).map Int.ofNat
  | '0' :: 'o' :: digits => (natOf? 8 digits).map Int.ofNat
  | '0' :: 'b' :: digits => (natOf? 2 digits).map Int.ofNat
  | cs =>
    let (sign, digits) := splitSign cs
    (decimal? digits).map fun n => if sign = some true then -(n : Int) else n

/-- Whether a text is an exponent, without its letter. -/
def isExponent (cs : List Char) : Bool := wellSpaced Char.isDigit (splitSign cs).2

/-- Whether a text is a float. -/
def isFloat (cs : List Char) : Bool :=
  let body := (splitSign cs).2
  if body = "inf".toList || body = "nan".toList then true
  else
    let isE := fun c => c == 'e' || c == 'E'
    let mantissa := body.takeWhile fun c => !isE c
    let exponent := body.drop mantissa.length
    let whole := mantissa.takeWhile (· ≠ '.')
    let fraction := mantissa.drop whole.length
    (decimal? whole).isSome &&
      (fraction.isEmpty || wellSpaced Char.isDigit fraction.tail) &&
      (exponent.isEmpty || isExponent exponent.tail) &&
      !(fraction.isEmpty && exponent.isEmpty)

/-- The number that exactly so many decimal digits denote. -/
def fixed? (count : Nat) (cs : List Char) : Option Nat :=
  if cs.length = count && cs.all Char.isDigit then
    some (cs.foldl (fun n c => n * 10 + digitValue c) 0)
  else none

/-- The number of days of a month. -/
def daysOf (year month : Nat) : Nat :=
  if month = 2 then
    if year % 4 = 0 ∧ (year % 100 ≠ 0 ∨ year % 400 = 0) then 29 else 28
  else if month = 4 ∨ month = 6 ∨ month = 9 ∨ month = 11 then 30 else 31

/-- Whether a text is a date. -/
def isDate (cs : List Char) : Bool :=
  match Text.splitOn '-' cs with
  | [y, m, d] =>
    match fixed? 4 y, fixed? 2 m, fixed? 2 d with
    | some year, some month, some day =>
      1 ≤ month && month ≤ 12 && 1 ≤ day && day ≤ daysOf year month
    | _, _, _ => false
  | _ => false

/-- Whether a text is the seconds of a time, perhaps with a fraction. -/
def isSeconds (cs : List Char) : Bool :=
  match Text.splitOn '.' cs with
  | [s] => (fixed? 2 s).any (· ≤ 60)
  | [s, fraction] =>
    (fixed? 2 s).any (· ≤ 60) && !fraction.isEmpty && fraction.all Char.isDigit
  | _ => false

/-- Whether a text is a time of day; the seconds may be left out. -/
def isTime (cs : List Char) : Bool :=
  match Text.splitOn ':' cs with
  | [h, m] => (fixed? 2 h).any (· ≤ 23) && (fixed? 2 m).any (· ≤ 59)
  | [h, m, s] => (fixed? 2 h).any (· ≤ 23) && (fixed? 2 m).any (· ≤ 59) && isSeconds s
  | _ => false

/-- Whether a text is an offset from universal time, without its sign. -/
def isOffset (cs : List Char) : Bool :=
  match Text.splitOn ':' cs with
  | [h, m] => (fixed? 2 h).any (· ≤ 23) && (fixed? 2 m).any (· ≤ 59)
  | _ => false

/-- Whether a text is a time of day, perhaps with an offset. -/
def isOffsetTime (cs : List Char) : Bool :=
  match cs.reverse with
  | 'Z' :: rest => isTime rest.reverse
  | 'z' :: rest => isTime rest.reverse
  | _ =>
    let time := cs.takeWhile fun c => c ≠ '+' && c ≠ '-'
    let offset := cs.drop time.length
    isTime time && (offset.isEmpty || isOffset offset.tail)

/-- Whether a text is a date, a time, or both with a `T` or a space between them. -/
def isDatetime (cs : List Char) : Bool :=
  isTime cs || isDate cs ||
    (isDate (cs.take 10) &&
      match cs.drop 10 with
      | c :: time => (c == 'T' || c == 't' || c == ' ') && isOffsetTime time
      | [] => false)

/-- The least integer that is read, of 128 bits with a sign. -/
def leastInteger : Int := -0x80000000000000000000000000000000

/-- The greatest integer that is read, of 128 bits without a sign. -/
def greatestInteger : Int := 0xFFFFFFFFFFFFFFFFFFFFFFFFFFFFFFFF

/-- The value that a run of characters denotes. -/
def ofText? (cs : List Char) : Option Value :=
  if cs = "true".toList then some (.boolean true)
  else if cs = "false".toList then some (.boolean false)
  else match integer? cs with
    | some n => if leastInteger ≤ n ∧ n ≤ greatestInteger then some (.integer n) else none
    | none =>
      if isFloat cs then some (.float (String.ofList cs))
      else if isDatetime cs then some (.datetime (String.ofList cs))
      else none

end InterfaceGuards.Toml.Scalar
