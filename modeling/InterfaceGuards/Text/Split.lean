/-
  Cutting texts into parts.

  * `splitOn`: the parts between the occurrences of a separator; `intercalate` glues them back.
  * `lines`: the lines of a text without their terminators.

  Main statement: `intercalate_splitOn` — nothing but separators is lost by splitting.
-/
namespace InterfaceGuards.Text

/-- The parts of a text between the occurrences of a separator; always at least one part. -/
def splitOn (separator : Char) : List Char → List (List Char)
  | [] => [[]]
  | c :: rest =>
    if c = separator then [] :: splitOn separator rest
    else match splitOn separator rest with
      | [] => [[c]]
      | part :: parts => (c :: part) :: parts

/-- The parts with a separator between any two neighbours. -/
def intercalate (separator : List Char) : List (List Char) → List Char
  | [] => []
  | [part] => part
  | part :: parts => part ++ separator ++ intercalate separator parts

theorem splitOn_ne_nil (separator : Char) (cs : List Char) : splitOn separator cs ≠ [] := by
  cases cs with
  | nil => simp [splitOn]
  | cons c rest =>
    simp only [splitOn]
    split
    · simp
    · split <;> simp

theorem intercalate_splitOn (separator : Char) (cs : List Char) :
    intercalate [separator] (splitOn separator cs) = cs := by
  induction cs with
  | nil => rfl
  | cons c rest ih =>
    have hne := splitOn_ne_nil separator rest
    simp only [splitOn]
    split
    · rename_i hc
      cases hs : splitOn separator rest with
      | nil => exact absurd hs hne
      | cons part parts => simp [intercalate, hc, ← hs, ih]
    · cases hs : splitOn separator rest with
      | nil => exact absurd hs hne
      | cons part parts =>
        rw [hs] at ih
        cases parts with
        | nil => simpa [intercalate] using ih
        | cons p ps => simpa [intercalate] using ih

/-- A line read backwards, without the carriage return that ends it. -/
def dropCarriageReturn : List Char → List Char
  | '\r' :: rest => rest
  | line => line

/-- The lines of a text whose current line, read backwards, is already known. -/
def linesFrom (current : List Char) : List Char → List (List Char)
  | [] => if current.isEmpty then [] else [current.reverse]
  | '\n' :: rest => (dropCarriageReturn current).reverse :: linesFrom [] rest
  | c :: rest => linesFrom (c :: current) rest

/-- The lines of a text.  A line ends with a line feed, which may follow a carriage return;
    the last line needs no end and then keeps a carriage return. -/
def lines (text : String) : List String := (linesFrom [] text.toList).map String.ofList

/-- The texts with a separator between any two neighbours. -/
def joinWith (separator : String) (parts : List String) : String :=
  String.ofList (intercalate separator.toList (parts.map String.toList))

end InterfaceGuards.Text
