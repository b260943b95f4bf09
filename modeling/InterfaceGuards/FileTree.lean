/-
  Files and directories.

  * `FileTree`: the directories and files that exist, by the names that lead to them.
  * `FileAction`: something that reads or changes a tree and may fail on the way.
  * `FileTree.locate`: the place that a path leads to.
  * `FileTree.read`, `write`, `makeDirectories`, `removeAll`: the actions.

  Paths are seen from the root and followed name by name, so that `..` needs
  the directory before it to exist.  There are no links.
-/
import InterfaceGuards.Path.Basic

namespace InterfaceGuards

/-- The names that lead from the root to a place. -/
abbrev Location := List String

/-- What can be at a place. -/
inductive FileNode where
  | directory
  | file (text : String)
deriving DecidableEq, Repr

/-- The directories and files that exist, without the root, which always does. -/
structure FileTree where
  nodes : List (Location × FileNode)
deriving Repr

/-- Why an action on files fails. -/
inductive FileError where
  | notFound
  | notDirectory
  | isDirectory
  | alreadyExists
  | nameTooLong
  | invalidName
deriving DecidableEq, Repr

/-- The wording of an error. -/
def FileError.message : FileError → String
  | .notFound => "No such file or directory (os error 2)"
  | .notDirectory => "Not a directory (os error 20)"
  | .isDirectory => "Is a directory (os error 21)"
  | .alreadyExists => "File exists (os error 17)"
  | .nameTooLong => "File name too long (os error 36)"
  | .invalidName => "file name contained an unexpected NUL byte"

/-- Something that reads or changes a tree and may fail on the way; what was done before stays. -/
abbrev FileAction := ExceptT FileError (StateM FileTree)

namespace FileTree

/-- The tree with nothing but the root. -/
def empty : FileTree := ⟨[]⟩

/-- What is at a place. -/
def node? (t : FileTree) (place : Location) : Option FileNode :=
  if place = [] then some .directory else t.nodes.lookup place

/-- The tree without what is at a place. -/
def erase (t : FileTree) (place : Location) : FileTree := ⟨t.nodes.filter fun n => n.1 ≠ place⟩

/-- The tree with a node at a place. -/
def insert (t : FileTree) (place : Location) (node : FileNode) : FileTree :=
  ⟨(t.erase place).nodes ++ [(place, node)]⟩

/-- Whether a place lies in a directory or further down. -/
def isInside (directory place : Location) : Bool :=
  directory.isPrefixOf place && directory.length < place.length

/-- The tree without all that lies in a directory. -/
def clear (t : FileTree) (directory : Location) : FileTree :=
  ⟨t.nodes.filter fun n => !isInside directory n.1⟩

/-- The files of a tree with their texts. -/
def files (t : FileTree) : List (Location × String) :=
  t.nodes.filterMap fun n =>
    match n.2 with
    | .file text => some (n.1, text)
    | .directory => none

/-! ## Following paths -/

/-- The most bytes that a name can have. -/
def longestName : Nat := 255

/-- A step on the way to a place; empty names stay where they are, so that a slash at the end
    asks for a directory. -/
def stepOf (segment : List Char) : Path.Component :=
  if segment = [] ∨ segment = ['.'] then .current
  else if segment = ['.', '.'] then .parent
  else .name (String.ofList segment)

/-- The steps of a path as they are followed. -/
def stepsOf (p : Path) : List Path.Component := (Text.splitOn '/' p.text.toList).map stepOf

/-- The place that a step leads to from another, which has to be a directory. -/
def enter (t : FileTree) (here : Location) (step : Path.Component) : Except FileError Location :=
  match t.node? here with
  | none => .error .notFound
  | some (.file _) => .error .notDirectory
  | some .directory =>
    match step with
    | .root => .ok []
    | .current => .ok here
    | .parent => .ok here.dropLast
    | .name text =>
      if longestName < text.utf8ByteSize then .error .nameTooLong else .ok (here ++ [text])

/-- The place that a path leads to; there need not be anything. -/
def locate (t : FileTree) (p : Path) : Except FileError Location :=
  if p.text.toList.contains '\x00' then .error .invalidName
  else (stepsOf p).foldlM t.enter []

/-- Whether there is something where a path leads to. -/
def isPresent (t : FileTree) (p : Path) : Bool :=
  match t.locate p with
  | .ok place => (t.node? place).isSome
  | .error _ => false

/-- The text of a file. -/
def read (t : FileTree) (p : Path) : Except FileError String := do
  let place ← t.locate p
  match t.node? place with
  | none => .error .notFound
  | some .directory => .error .isDirectory
  | some (.file text) => .ok text

/-! ## Changes -/

/-- Puts a text into a file, in the place of what was in it. -/
def write (p : Path) (text : String) : FileAction Unit := do
  let t ← get
  let place ← t.locate p
  match t.node? place with
  | some .directory => throw .isDirectory
  | _ => set (t.insert place (.file text))

/-- Goes one step further and makes a directory there if there is nothing. -/
def enterOrMake (here : Location) (step : Path.Component) : FileAction Location := do
  let t ← get
  let place ← t.enter here step
  match t.node? place with
  | none =>
    set (t.insert place .directory)
    pure place
  | some .directory => pure place
  | some (.file _) => throw .alreadyExists

/-- Makes a directory with all those on the way to it. -/
def makeDirectories (p : Path) : FileAction Unit := do
  match (← get).locate p with
  | .error .invalidName => throw .invalidName
  | .error .notDirectory => throw .notDirectory
  | _ =>
    let _ ← (stepsOf p).foldlM enterOrMake []

/-- Removes a directory with all that lies in it.  The directory itself stays if the way to it led
    through something that is no more. -/
def removeAll (p : Path) : FileAction Unit := do
  let t ← get
  let place ← t.locate p
  match t.node? place with
  | none => throw .notFound
  | some (.file _) => throw .notDirectory
  | some .directory =>
    let cleared := t.clear place
    match cleared.locate p with
    | .ok _ => set (cleared.erase place)
    | .error _ => set cleared

end FileTree

end InterfaceGuards
