/-
  Sets of characters.

  * `CharSet`: a set, as the question whether a character is in it.
  * `CharSet.union`, `inter`, `diff`, `symmDiff`, `compl`: the operations on sets.
  * `CharSet.folded`: the set with all characters that differ from a member in case only.
  * `CharSet.digit`, `space`, `word`, `ofPosixName?`, `ofPropertyName?`: the sets with names.

  Of the properties of characters only white space and the general categories have names here.
  Scripts such as `Greek` and other properties such as `Alphabetic` have none.
-/
import InterfaceGuards.Pattern.Glob
import InterfaceGuards.Text.Blank
import InterfaceGuards.Text.Category
import InterfaceGuards.Text.Folding

namespace InterfaceGuards.Pattern

/-- A set of characters. -/
abbrev CharSet := Char → Bool

namespace CharSet

/-- No character. -/
def empty : CharSet := fun _ => false

/-- One character. -/
def single (c : Char) : CharSet := fun d => d == c

/-- The characters of a range. -/
def range (r : CharRange) : CharSet := r.contains

/-- The characters of several ranges. -/
def ranges (rs : List CharRange) : CharSet := fun c => rs.any (·.contains c)

/-- The members of either set. -/
def union (a b : CharSet) : CharSet := fun c => a c || b c

/-- The members of both sets. -/
def inter (a b : CharSet) : CharSet := fun c => a c && b c

/-- The members of the first set that are not in the second. -/
def diff (a b : CharSet) : CharSet := fun c => a c && !b c

/-- The members of just one of two sets. -/
def symmDiff (a b : CharSet) : CharSet := fun c => a c != b c

/-- The characters that are not in a set. -/
def compl (a : CharSet) : CharSet := fun c => !a c

/-- The complement when asked for, else the set itself. -/
def negatedIf (negated : Bool) (a : CharSet) : CharSet := if negated then a.compl else a

/-- The set with all characters that differ from a member in case only. -/
def folded (a : CharSet) : CharSet := fun c => (Text.variantsOf c).any a

/-- The set with the letters of ASCII that differ from a member in case only. -/
def asciiFolded (a : CharSet) : CharSet := fun c => a c || a (Text.swapAsciiCase c)

/-! ## Sets with names -/

/-- The decimal digits of all scripts. -/
def digit : CharSet := Text.isDigit

/-- White space. -/
def space : CharSet := Text.isSpace

/-- The characters of words. -/
def word : CharSet := Text.isWord

/-- The digits of ASCII. -/
def asciiDigit : CharSet := Char.isDigit

/-- The white space of ASCII. -/
def asciiSpace : CharSet := fun c => c == ' ' || ('\t' ≤ c && c ≤ '\r')

/-- The word characters of ASCII. -/
def asciiWord : CharSet := fun c => c.isAlphanum || c == '_'

/-- The characters that print a mark, in ASCII. -/
def asciiGraph : CharSet := range ⟨'!', '~'⟩

/-- The set of ASCII characters with a name of the POSIX standard. -/
def ofPosixName? (name : String) : Option CharSet :=
  match name with
  | "alnum" => some Char.isAlphanum
  | "alpha" => some Char.isAlpha
  | "ascii" => some fun c => c.toNat < 0x80
  | "blank" => some fun c => c == ' ' || c == '\t'
  | "cntrl" => some fun c => c.toNat < 0x20 || c.toNat == 0x7F
  | "digit" => some asciiDigit
  | "graph" => some asciiGraph
  | "lower" => some Char.isLower
  | "print" => some (range ⟨' ', '~'⟩)
  | "punct" => some (diff asciiGraph Char.isAlphanum)
  | "space" => some asciiSpace
  | "upper" => some Char.isUpper
  | "word" => some asciiWord
  | "xdigit" => some (ranges [⟨'0', '9'⟩, ⟨'A', 'F'⟩, ⟨'a', 'f'⟩])
  | _ => none

/-- The characters of the categories with one of the given names; a name of one letter stands for
    all its subclasses. -/
def categories (names : List String) : CharSet := fun c =>
  let category := Text.categoryOf c
  names.any fun name =>
    name == String.ofList [category.major] ||
      name == String.ofList [category.major, category.minor]

/-- The long names of the general categories. -/
def categoryNames : List (String × List String) :=
  [("letter", ["L"]), ("casedletter", ["Lu", "Ll", "Lt"]), ("lc", ["Lu", "Ll", "Lt"]),
    ("uppercaseletter", ["Lu"]), ("lowercaseletter", ["Ll"]), ("titlecaseletter", ["Lt"]),
    ("modifierletter", ["Lm"]), ("otherletter", ["Lo"]), ("mark", ["M"]),
    ("combiningmark", ["M"]), ("nonspacingmark", ["Mn"]), ("spacingmark", ["Mc"]),
    ("enclosingmark", ["Me"]), ("number", ["N"]), ("decimalnumber", ["Nd"]), ("digit", ["Nd"]),
    ("letternumber", ["Nl"]), ("othernumber", ["No"]), ("punctuation", ["P"]), ("punct", ["P"]),
    ("connectorpunctuation", ["Pc"]), ("dashpunctuation", ["Pd"]), ("openpunctuation", ["Ps"]),
    ("closepunctuation", ["Pe"]), ("initialpunctuation", ["Pi"]), ("finalpunctuation", ["Pf"]),
    ("otherpunctuation", ["Po"]), ("symbol", ["S"]), ("mathsymbol", ["Sm"]),
    ("currencysymbol", ["Sc"]), ("modifiersymbol", ["Sk"]), ("othersymbol", ["So"]),
    ("separator", ["Z"]), ("spaceseparator", ["Zs"]), ("lineseparator", ["Zl"]),
    ("paragraphseparator", ["Zp"]), ("other", ["C"]), ("control", ["Cc"]), ("cntrl", ["Cc"]),
    ("format", ["Cf"]), ("surrogate", ["Cs"]), ("privateuse", ["Co"]), ("unassigned", ["Cn"])]

/-- The short names of the general categories. -/
def shortCategoryNames : List String :=
  ["L", "Lu", "Ll", "Lt", "Lm", "Lo", "M", "Mn", "Mc", "Me", "N", "Nd", "Nl", "No", "P", "Pc",
    "Pd", "Ps", "Pe", "Pi", "Pf", "Po", "S", "Sm", "Sc", "Sk", "So", "Z", "Zs", "Zl", "Zp", "C",
    "Cc", "Cf", "Cs", "Co", "Cn"]

/-- The set of a general category, of all characters, of ASCII or of the assigned characters. -/
def ofCategoryName? (name : String) : Option CharSet :=
  match name with
  | "any" => some fun _ => true
  | "ascii" => some fun c => c.toNat < 0x80
  | "assigned" => some (compl (categories ["Cn"]))
  | _ =>
    match categoryNames.lookup name with
    | some names => some (categories names)
    | none => (shortCategoryNames.find? (·.toLower == name)).map fun short => categories [short]

/-- A property name in the form in which names are compared: without case, spaces, hyphens,
    underscores, characters beyond ASCII and an `is` in front. -/
def normalName (name : List Char) : String :=
  let body :=
    match name with
    | i :: s :: rest => if (i == 'i' || i == 'I') && (s == 's' || s == 'S') then rest else name
    | _ => name
  String.ofList ((body.filter fun c =>
    c != ' ' && c != '_' && c != '-' && c.toNat < 0x80).map Char.toLower)

/-- The set of a property that is asked for by name. -/
def ofPropertyName? (name : List Char) : Option CharSet :=
  match normalName name with
  | "whitespace" => some space
  | "space" => some space
  | "wspace" => some space
  | normal => ofCategoryName? normal

/-- The set of a property that is asked for by its name and value. -/
def ofPropertyValue? (name value : List Char) : Option CharSet :=
  let normal := normalName name
  if normal = "generalcategory" ∨ normal = "gc" then ofCategoryName? (normalName value) else none

end CharSet

end InterfaceGuards.Pattern
