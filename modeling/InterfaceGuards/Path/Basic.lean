/-
  Paths.

  * `Path`: a path as it was written; its `text` is what is shown.
  * `Path.components`: what the path means, `/` and `.` between names left aside.
  * `Path.join`, `Path.parent?`, `Path.fileName?`, `Path.startsWith`: the usual operations,
    which keep the spelling of the parts they do not touch.
  * `Path.stem?`, `Path.extension?`, `Path.withoutExtension`: the parts of a file name.
-/
import InterfaceGuards.Text.Split

namespace InterfaceGuards

/-- A path as it was written. -/
structure Path where
  text : String
deriving DecidableEq, Repr, Inhabited

namespace Path

/-- A step of a path. -/
inductive Component where
  | root
  | current
  | parent
  | name (text : String)
deriving DecidableEq, Repr

/-- How a step is spelled. -/
def Component.text : Component → String
  | .root => "/"
  | .current => "."
  | .parent => ".."
  | .name text => text

/-- The path of no steps. -/
def empty : Path := ⟨""⟩

/-- Whether the path starts at the root. -/
def isAbsolute (p : Path) : Bool := p.text.toList.head? == some '/'

/-- The first part of a path, when it is a step but not a name: the root, or a leading `.`. -/
inductive Lead where
  | none
  | root
  | current
deriving DecidableEq, Repr

/-- The spelling of the lead. -/
def Lead.chars : Lead → List Char
  | .none => []
  | .root => ['/']
  | .current => ['.']

/-- The step that the lead is. -/
def Lead.components : Lead → List Component
  | .none => []
  | .root => [.root]
  | .current => [.current]

/-- The lead of a text and what follows it. -/
def splitLead : List Char → Lead × List Char
  | '/' :: rest => (.root, rest)
  | ['.'] => (.current, [])
  | '.' :: '/' :: rest => (.current, '/' :: rest)
  | cs => (.none, cs)

/-- The step that a segment between two slashes is; empty segments and `.` are none. -/
def componentOf? (segment : List Char) : Option Component :=
  if segment = [] ∨ segment = ['.'] then none
  else if segment = ['.', '.'] then some .parent
  else some (.name (String.ofList segment))

/-- The segments after the lead, without those at the end that are no steps. -/
def trimEnd (segments : List (List Char)) : List (List Char) :=
  (segments.reverse.dropWhile fun s => (componentOf? s).isNone).reverse

/-- The steps of a path. -/
def components (p : Path) : List Component :=
  let (lead, body) := splitLead p.text.toList
  lead.components ++ (Text.splitOn '/' body).filterMap componentOf?

/-- A path spelled by a lead and segments. -/
def ofSegments (lead : Lead) (segments : List (List Char)) : Path :=
  ⟨String.ofList (lead.chars ++ Text.intercalate ['/'] segments)⟩

/-- `q` as seen from `p`: an absolute `q` stands for itself, any other is appended. -/
def join (p q : Path) : Path :=
  if q.isAbsolute then q
  else if p.text = "" ∨ p.text.toList.getLast? = some '/' then ⟨p.text ++ q.text⟩
  else ⟨p.text ++ "/" ++ q.text⟩

/-- The path that takes the given steps one after the other. -/
def ofComponents (cs : List Component) : Path := cs.foldl (fun p c => p.join ⟨c.text⟩) empty

/-- The path without its last step; the root and the empty path have none. -/
def parent? (p : Path) : Option Path :=
  let (lead, body) := splitLead p.text.toList
  let segments := trimEnd (Text.splitOn '/' body)
  match segments, lead with
  | [], .current => some empty
  | [], _ => none
  | _, _ => some (ofSegments lead (trimEnd segments.dropLast))

/-- The last step, when it is a name. -/
def fileName? (p : Path) : Option String :=
  match p.components.getLast? with
  | some (.name text) => some text
  | _ => none

/-- Whether the steps of `q` are the first steps of `p`. -/
def startsWith (p q : Path) : Bool := q.components.isPrefixOf p.components

/-- A file name cut at its last dot.  A name without a dot, or with its only dot in front,
    has no extension. -/
def splitName (name : List Char) : List Char × Option (List Char) :=
  if name = ['.', '.'] then (name, none)
  else
    let extension := (name.reverse.takeWhile (· ≠ '.')).reverse
    match (name.reverse.dropWhile (· ≠ '.')) with
    | [] => (name, none)
    | _ :: stem => if stem = [] then (name, none) else (stem.reverse, some extension)

/-- The file name without its extension. -/
def stem? (p : Path) : Option String :=
  p.fileName?.map fun name => String.ofList (splitName name.toList).1

/-- What follows the last dot of the file name. -/
def extension? (p : Path) : Option String :=
  p.fileName?.bind fun name => (splitName name.toList).2.map String.ofList

/-- The path cut off after the stem of its file name. -/
def cutAfterStem (p : Path) : Path :=
  match p.stem? with
  | none => p
  | some stem =>
    let (lead, body) := splitLead p.text.toList
    ofSegments lead ((trimEnd (Text.splitOn '/' body)).dropLast ++ [stem.toList])

/-- The path without its extension.

    As many characters as the extension has are dropped from the end, and what is left is cut
    after the stem of its file name; when it ends in `..` it has no file name and stays. -/
def withoutExtension (p : Path) : Path :=
  match p.extension? with
  | none => p.cutAfterStem
  | some extension =>
    cutAfterStem ⟨String.ofList (p.text.toList.take (p.text.length - extension.length))⟩

end Path

end InterfaceGuards
