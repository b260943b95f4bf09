/-
  Selecting units by patterns.

  * `Selection`: which units a run is about.
  * `Selection.ofPatterns`: the selection that patterns write, or the pattern that is none.
  * `Selection.selects`: whether a unit belongs to it.
-/
import InterfaceGuards.Path.Normal
import InterfaceGuards.Pattern.Regex.Parser

namespace InterfaceGuards

open Pattern (Glob Regex)

/-- Which units a run is about: those that fit one of `includes`, if there are any, and in which
    none of `excludes` is found.  Paths are compared as seen from the directory `base`. -/
structure Selection where
  base : Path
  includes : List Glob
  excludes : List Regex

/-- A text that is no pattern. -/
inductive PatternError where
  | glob (pattern : String)
  | regex (pattern : String)
deriving DecidableEq, Repr

/-- The wording of the error. -/
def PatternError.message : PatternError → String
  | .glob pattern => "invalid include glob '" ++ pattern ++ "'"
  | .regex pattern => "invalid exclude regex '" ++ pattern ++ "'"

namespace Selection

/-- The glob that a text writes. -/
def readGlob (pattern : String) : Except PatternError Glob :=
  match Glob.parse? pattern with
  | some glob => .ok glob
  | none => .error (.glob pattern)

/-- The regular expression that a text writes. -/
def readRegex (pattern : String) : Except PatternError Regex :=
  match Regex.parse? pattern with
  | some regex => .ok regex
  | none => .error (.regex pattern)

/-- The selection that patterns write; all globs are read before any regular expression. -/
def ofPatterns (base : Path) (includes excludes : List String) : Except PatternError Selection := do
  let includes ← includes.mapM readGlob
  let excludes ← excludes.mapM readRegex
  .ok ⟨base, includes, excludes⟩

/-- The text that patterns see of a path: what is left of it below the base, or else the path as
    it is, with slashes between its steps. -/
def textOf (s : Selection) (p : Path) : String := ((p.below? s.base).getD p).slashed

/-- Whether a unit belongs to the selection. -/
def selects (s : Selection) (p : Path) : Bool :=
  let text := (s.textOf p).toList
  (s.includes.isEmpty || s.includes.any (·.accepts text)) && !s.excludes.any (·.foundIn text)

end Selection

end InterfaceGuards
