/-
  Lexical normal forms of paths and what is computed from them.

  * `Path.normalSteps`: the steps of a path with `.` dropped and `..` resolved.
  * `Path.relativeTo?`: the path that leads from a directory to a target.
  * `Path.below?`: what is left of a path below a root.
  * `Path.absoluteFrom`: a path as seen from the root, given the directory it is seen from.

  Nothing here looks at files: two paths are compared step by step.
-/
import InterfaceGuards.Path.Basic

namespace InterfaceGuards.Path

/-- The steps taken so far (the last one first) after one more step. -/
def Component.resolve (taken : List Component) (step : Component) : List Component :=
  match step with
  | .current => taken
  | .parent =>
    match taken with
    | .name _ :: before => before
    | .root :: _ => taken
    | _ => .parent :: taken
  | step => step :: taken

/-- The steps of a path with `.` dropped and `..` taking back the name before it.
    At the root `..` stays where it is; with nothing to take back it is kept. -/
def normalSteps (p : Path) : List Component :=
  (p.components.foldl Component.resolve []).reverse

/-- The number of first steps that two lists share. -/
def commonLength : List Component → List Component → Nat
  | a :: as, b :: bs => if a = b then commonLength as bs + 1 else 0
  | _, _ => 0

/-- The path that leads from the directory `source` to `target`; there is none when just one of
    them is absolute. -/
def relativeTo? (source target : Path) : Option Path :=
  if source.isAbsolute = target.isAbsolute then
    let start := source.normalSteps
    let goal := target.normalSteps
    let shared := commonLength start goal
    some (ofComponents
      (List.replicate (start.length - shared) .parent ++ goal.drop shared))
  else none

/-- What is left of a path below a root; there is nothing when it lies outside. -/
def below? (p root : Path) : Option Path :=
  let steps := p.normalSteps
  let rootSteps := root.normalSteps
  if rootSteps.isPrefixOf steps then some (ofComponents (steps.drop rootSteps.length)) else none

/-- The spelling of a path's steps with one slash between any two. -/
def slashed (p : Path) : String := Text.joinWith "/" (p.components.map Component.text)

/-- The path as seen from the root, given the directory it is seen from; `..` is kept, as what it
    leads to depends on links.

    The empty path stands for the directory itself.  A run never asks for it: its destination has
    been joined to the directory of the manifest, and no manifest is read from an empty path. -/
def absoluteFrom (p directory : Path) : Path :=
  ofComponents ((directory.join p).components.filter (· ≠ .current))

end InterfaceGuards.Path
