/-
  The shortest decimal text of a double.

  * `Double.shortestDigits`: the fewest digits that read back as the number, and
    of those the digits nearest to it.
  * `Double.text`: those digits written out positionally, without an exponent
    and without a needless `.0`.

  A decimal reads back as `m · 2 ^ e` when it lies in the interval of reals that
  round to it.  The interval reaches half a step up and half a step down (a
  quarter where the step below is half as wide), ends included when `m` is even.
-/
import InterfaceGuards.Number.Double

namespace InterfaceGuards.Double

/-- An interval of reals around a number, all counted in units of `unitNum / unitDen`. -/
structure Rounding where
  value : Nat
  below : Nat
  above : Nat
  closed : Bool
  unitNum : Nat
  unitDen : Nat

/-- The reals that round to `m · 2 ^ e`, in units of `2 ^ (e - 2)`. -/
def rounding (m : Nat) (e : Int) : Rounding where
  value := 4 * m
  below := if m = twoPow (precision - 1) ∧ leastExponent < e then 4 * m - 1 else 4 * m - 2
  above := 4 * m + 2
  closed := m % 2 = 0
  unitNum := twoPow (e - 2).toNat
  unitDen := twoPow (2 - e).toNat

/-- Whether the decimal `c · 10 ^ k` lies in the interval. -/
def Rounding.contains (r : Rounding) (c : Nat) (k : Int) : Bool :=
  let point := c * tenPow k.toNat * r.unitDen
  let step := tenPow (-k).toNat * r.unitNum
  if r.closed then r.below * step ≤ point && point ≤ r.above * step
  else r.below * step < point && point < r.above * step

/-- The value as a fraction of the grid step `10 ^ k`. -/
def Rounding.onGrid (r : Rounding) (k : Int) : Nat × Nat :=
  (r.value * r.unitNum * tenPow (-k).toNat, r.unitDen * tenPow k.toNat)

/-- The greatest `k` with `10 ^ k` not above the value. -/
def Rounding.magnitude (r : Rounding) : Int :=
  let (n, d) := r.onGrid 0
  if d ≤ n then (decimalLength (n / d) : Int) - 1
  else
    let k := decimalLength (d / n)
    -- `n / d` lies between `10 ^ (-k)` and `10 ^ (1 - k)`
    if d ≤ n * tenPow (k - 1) then 1 - (k : Int) else -(k : Int)

/-- The decimal of the grid `10 ^ k` that reads back as the value, the nearer one of two;
    a tie goes up. -/
def Rounding.gridPoint? (r : Rounding) (k : Int) : Option Nat :=
  let (n, d) := r.onGrid k
  let low := n / d
  match r.contains low k, r.contains (low + 1) k with
  | true, true => if d ≤ 2 * (n % d) then some (low + 1) else some low
  | true, false => some low
  | false, true => some (low + 1)
  | false, false => none

/-- The first grid that holds a decimal reading back as the value, among `tries` finer and
    finer ones from `10 ^ k` on. -/
def Rounding.search (r : Rounding) : (tries : Nat) → (k : Int) → Nat × Int
  | 0, k => let (n, d) := r.onGrid k; (n / d, k)
  | tries + 1, k =>
    match r.gridPoint? k with
    | some c => (c, k)
    | none => search r tries (k - 1)

/-- Digits and scale of the shortest decimal that reads back as `m · 2 ^ e`. -/
def shortestDigits (m : Nat) (e : Int) : Nat × Int :=
  let r := rounding m e
  r.search 17 r.magnitude

/-- The decimal `digits · 10 ^ scale` written positionally. -/
def positional (digits : Nat) (scale : Int) : String :=
  let ds := Nat.toDigits 10 digits
  match scale with
  | .ofNat k => String.ofList (ds ++ List.replicate k '0')
  | .negSucc k =>
    let places := k + 1
    let padded := List.replicate (places + 1 - ds.length) '0' ++ ds
    let whole := padded.take (padded.length - places)
    let rest := (padded.drop (padded.length - places)).reverse.dropWhile (· == '0')
    match rest with
    | [] => String.ofList whole
    | _ => String.ofList (whole ++ '.' :: rest.reverse)

/-- The text of a number: its shortest digits, never an exponent. -/
def text : Double → String
  | .nan => "NaN"
  | .infinite negative => if negative then "-inf" else "inf"
  | .finite negative m e =>
    let magnitude :=
      if m = 0 then "0" else let (digits, scale) := shortestDigits m e; positional digits scale
    if negative then "-" ++ magnitude else magnitude

end InterfaceGuards.Double
