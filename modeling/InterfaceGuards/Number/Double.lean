/-
  Double-precision numbers, as literal types hold them.

  * `Double`: a number is not-a-number, an infinity, or `± mantissa · 2 ^ exponent`.
  * `Double.ofRatio`: the double nearest to a fraction, a tie going to the even mantissa.
  * `Double.ofDecimal`: the double nearest to a decimal `digits · 10 ^ scale`.

  A finite double in canonical form has a mantissa below `2 ^ 53`, which is at
  least `2 ^ 52` unless the exponent is the least one; zero has exponent `0`.
-/
namespace InterfaceGuards

/-- A double-precision number; a finite one stands for `± mantissa · 2 ^ exponent`. -/
inductive Double where
  | nan
  | infinite (negative : Bool)
  | finite (negative : Bool) (mantissa : Nat) (exponent : Int)
deriving DecidableEq, Repr, Inhabited

namespace Double

/-- The powers of two. -/
def twoPow (k : Nat) : Nat := Nat.pow 2 k

/-- The powers of ten. -/
def tenPow (k : Nat) : Nat := Nat.pow 10 k

/-- The number of mantissa bits. -/
def precision : Nat := 53

/-- The least exponent of a finite double. -/
def leastExponent : Int := -1074

/-- The greatest exponent of a finite double. -/
def greatestExponent : Int := 971

/-- Zero with the given sign. -/
def zero (negative : Bool) : Double := .finite negative 0 0

/-- The number with its sign turned; a not-a-number stays what it is. -/
def neg : Double → Double
  | .nan => .nan
  | .infinite n => .infinite !n
  | .finite n m e => .finite (!n) m e

instance : Neg Double := ⟨neg⟩

/-- `num / den` rounded to the nearest whole number, a tie going to the even one. -/
def roundDiv (num den : Nat) : Nat :=
  let q := num / den
  let twice := 2 * (num % den)
  if twice < den then q
  else if den < twice then q + 1
  else if q % 2 = 0 then q else q + 1

/-- `num / (den · 2 ^ e)` as a fraction of whole numbers. -/
def scaled (num den : Nat) (e : Int) : Nat × Nat :=
  match e with
  | .ofNat k => (num, den <<< k)
  | .negSucc k => (num <<< (k + 1), den)

/-- The exponent at which `num / den` has a mantissa of full precision, but not below the least. -/
def exponentFor (num den : Nat) : Int :=
  let guess : Int := (num.log2 : Int) - den.log2 - precision
  let (n, d) := scaled num den guess
  max leastExponent (if n / d < twoPow precision then guess else guess + 1)

/-- The double nearest to `num / den`; beyond the finite doubles it is an infinity. -/
def ofRatio (negative : Bool) (num den : Nat) : Double :=
  if num = 0 then zero negative
  else
    let e := exponentFor num den
    let (n, d) := scaled num den e
    let m := roundDiv n d
    let (m, e) := if m = twoPow precision then (twoPow (precision - 1), e + 1) else (m, e)
    if m = 0 then zero negative
    else if greatestExponent < e then .infinite negative
    else .finite negative m e

/-- The number of decimal digits of a whole number. -/
def decimalLength (n : Nat) : Nat := (Nat.toDigits 10 n).length

/-- The double nearest to `± digits · 10 ^ scale`.

    A scale far outside the range of doubles is answered without computing the power of ten. -/
def ofDecimal (negative : Bool) (digits : Nat) (scale : Int) : Double :=
  if digits = 0 then zero negative
  else if 400 < scale then .infinite negative
  else if scale + decimalLength digits < -400 then zero negative
  else match scale with
    | .ofNat k => ofRatio negative (digits * tenPow k) 1
    | .negSucc k => ofRatio negative digits (tenPow (k + 1))

end Double

end InterfaceGuards
