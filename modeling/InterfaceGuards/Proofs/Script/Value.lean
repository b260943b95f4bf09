/-
  Values that a generated script meets when it runs.

  * `Value`: the finite values; an object maps finitely many names to values.
  * `Value.typeOf`, `property?`, `elements?`, `spread?`, `isDate`, `same`: what a script asks about
    a value.
  * `Value.size`: how many objects a value is made of; `size_property?` and `size_elements?` say
    that what is read from an object is smaller than the object.
-/
import InterfaceGuards.TypeExpr.Basic
import Mathlib.Tactic.SplitIfs

namespace InterfaceGuards

/-! ## Numbers -/

/-- Whether two numbers are equal: not-a-number equals nothing, and the zeros are equal. -/
def Double.equals : Double → Double → Bool
  | .infinite n, .infinite n' => n == n'
  | .finite n m e, .finite n' m' e' =>
    (m == 0 && m' == 0) ||
      (n == n' && m * twoPow (e - e').toNat == m' * twoPow (e' - e).toNat)
  | _, _ => false

theorem Double.equals_self {x : Double} (h : x ≠ .nan) : x.equals x = true := by
  cases x with
  | nan => exact absurd rfl h
  | infinite => simp [equals]
  | finite => simp [equals]

namespace Script

/-! ## Values -/

/-- A finite value.  Functions, arrays and dates are objects with properties of their own; the
    elements of an array are its properties `0`, `1`, … -/
inductive Value where
  | undefined
  | null
  | boolean (b : Bool)
  | number (x : Double)
  | string (text : String)
  | bigint (n : Int)
  | symbol (description : String)
  | function (properties : List (String × Value))
  | object (properties : List (String × Value))
  | array (elements : List Value) (properties : List (String × Value))
  | date (properties : List (String × Value))
deriving Repr, Inhabited

namespace Value

/-- The answer of `typeof`. -/
def typeOf : Value → String
  | .undefined => "undefined"
  | .null => "object"
  | .boolean _ => "boolean"
  | .number _ => "number"
  | .string _ => "string"
  | .bigint _ => "bigint"
  | .symbol _ => "symbol"
  | .function _ => "function"
  | .object _ => "object"
  | .array _ _ => "object"
  | .date _ => "object"

/-- Whether a value counts as true in a condition. -/
def isTruthy : Value → Bool
  | .undefined => false
  | .null => false
  | .boolean b => b
  | .number x => x ≠ .nan && !x.equals (.zero false)
  | .string text => text ≠ ""
  | .bigint n => n ≠ 0
  | _ => true

/-- Whether a value is an object that is no function. -/
def isObject : Value → Bool
  | .object _ => true
  | .array _ _ => true
  | .date _ => true
  | _ => false

/-- Whether a value is an instance of the built-in class of dates. -/
def isDate : Value → Bool
  | .date _ => true
  | _ => false

/-- The elements of an array. -/
def elements? : Value → Option (List Value)
  | .array es _ => some es
  | _ => none

/-- The element of an array that a property name denotes, the first one being called `first`. -/
def elementNamed? (name : String) : (first : Nat) → List Value → Option Value
  | _, [] => none
  | i, e :: es => if Nat.repr i = name then some e else elementNamed? name (i + 1) es

/-- What a property read gives; reading from anything but an object is an error.  A property that
    is not there is undefined. -/
def property? : Value → String → Option Value
  | .function ps, name => some ((ps.lookup name).getD .undefined)
  | .object ps, name => some ((ps.lookup name).getD .undefined)
  | .date ps, name => some ((ps.lookup name).getD .undefined)
  | .array es ps, name =>
    if name = "length" then some (.number (.ofRatio false es.length 1))
    else some ((elementNamed? name 0 es <|> ps.lookup name).getD .undefined)
  | _, _ => none

/-- The properties that an object literal gets from a value that it spreads; scripts spread nothing
    but objects and what is not there. -/
def spread? : Value → Option (List (String × Value))
  | .undefined => some []
  | .null => some []
  | .object ps => some ps
  | .function ps => some ps
  | .date ps => some ps
  | _ => none

/-- Strict equality.  Objects and symbols are told apart by identity, which is not looked at:
    scripts only compare with values that are neither. -/
def same : Value → Value → Bool
  | .undefined, .undefined => true
  | .null, .null => true
  | .boolean b, .boolean b' => b == b'
  | .number x, .number x' => x.equals x'
  | .string t, .string t' => t == t'
  | .bigint n, .bigint n' => n == n'
  | _, _ => false

/-- The value of a literal. -/
def ofLiteral : Literal → Value
  | .string text => .string text
  | .number x => .number x
  | .boolean b => .boolean b

theorem property?_isSome {v : Value} (h : v.isObject) (name : String) :
    ∃ w, v.property? name = some w := by
  cases v with
  | object | date => exact ⟨_, rfl⟩
  | array es ps =>
    simp only [property?]
    split_ifs
    · exact ⟨_, rfl⟩
    · exact ⟨_, rfl⟩
  | _ => cases h

theorem isObject_iff {v : Value} : v.isObject ↔ v.typeOf = "object" ∧ v ≠ .null := by
  cases v <;> simp [isObject, typeOf]

theorem same_undefined {v : Value} : v.same .undefined = true ↔ v = .undefined := by
  cases v <;> simp [same]

theorem same_null {v : Value} : v.same .null = true ↔ v = .null := by
  cases v <;> simp [same]

/-- A literal equals itself unless it is not-a-number. -/
theorem same_ofLiteral {x : Literal} (h : x ≠ .number .nan) :
    (ofLiteral x).same (ofLiteral x) = true := by
  cases x with
  | string | boolean => simp [ofLiteral, same]
  | number x => exact Double.equals_self (by simpa using h)

/-! ## Sizes -/

mutual

/-- The number of objects that a value is made of. -/
def size : Value → Nat
  | .function ps => sizeOfProperties ps + 1
  | .object ps => sizeOfProperties ps + 1
  | .date ps => sizeOfProperties ps + 1
  | .array es ps => sizeOfElements es + sizeOfProperties ps + 1
  | _ => 0

/-- The number of objects that several values are made of. -/
def sizeOfElements : List Value → Nat
  | [] => 0
  | v :: vs => v.size + sizeOfElements vs

/-- The number of objects that the values of several properties are made of. -/
def sizeOfProperties : List (String × Value) → Nat
  | [] => 0
  | (_, v) :: ps => v.size + sizeOfProperties ps

end

theorem size_le_elements {v : Value} : ∀ {vs : List Value}, v ∈ vs → v.size ≤ sizeOfElements vs
  | w :: vs, h => by
    rw [sizeOfElements]
    rcases List.mem_cons.1 h with rfl | h
    · omega
    · have := size_le_elements h; omega

theorem size_lookup_le (name : String) : ∀ ps : List (String × Value),
    ((ps.lookup name).getD .undefined).size ≤ sizeOfProperties ps
  | [] => by simp [size]
  | (key, v) :: ps => by
    have ih := size_lookup_le name ps
    rw [List.lookup_cons, sizeOfProperties]
    split
    · simp
    · omega

theorem elementNamed?_mem {name : String} {v : Value} : ∀ {i : Nat} {vs : List Value},
    elementNamed? name i vs = some v → v ∈ vs
  | i, w :: vs, h => by
    unfold elementNamed? at h
    split_ifs at h with hi
    · cases h; exact List.mem_cons_self
    · exact List.mem_cons_of_mem _ (elementNamed?_mem h)

/-- **What is read from an object is smaller than the object.** -/
theorem size_property? {v w : Value} {name : String} (h : v.property? name = some w) :
    w.size < v.size := by
  cases v with
  | function ps | object ps | date ps =>
    cases h
    have := size_lookup_le name ps
    rw [size]; omega
  | array es ps =>
    simp only [property?] at h
    rw [size]
    split_ifs at h with hl
    · cases h; simp [size]
    · cases he : elementNamed? name 0 es with
      | some e =>
        have hw : w = e := by simpa [he] using h.symm
        have := size_le_elements (elementNamed?_mem he)
        rw [hw]; omega
      | none =>
        have hw : w = (ps.lookup name).getD .undefined := by simpa [he] using h.symm
        have := size_lookup_le name ps
        rw [hw]; omega
  | _ => cases h

theorem size_elements? {v w : Value} {vs : List Value} (h : v.elements? = some vs) (hw : w ∈ vs) :
    w.size < v.size := by
  cases v with
  | array es ps =>
    cases h
    have := size_le_elements hw
    rw [size]; omega
  | _ => cases h

end Value

end Script

end InterfaceGuards
