import GradleScript.Text.Basic

namespace GradleScript

/-!
# Paths

A path is kept in its shortest spelling: without repeated separators, without components that stand
for the same place, and without a separator at its end.  A component that leads upwards is kept.
-/

/-- A path: what it is anchored at, and its components. -/
structure Path where
  /-- Empty for a relative path; one separator for an absolute one, or exactly two. -/
  anchor : Text := []
  parts : List Text := []
  deriving Repr, DecidableEq

namespace Path

/-- The component that leads upwards. -/
def parentPart : Text :=
  ['.', '.']

/-- The anchor of a written path. -/
def anchorOf (text : Text) : Text :=
  match text.takeWhile (fun ch => ch == '/') with
  | [] => []
  | ['/', '/'] => ['/', '/']
  | _ => ['/']

/-- The path that a text denotes. -/
def ofText (text : Text) : Path where
  anchor := anchorOf text
  parts := (splitOn '/' text).filter fun part => !part.isEmpty && part != ['.']

/-- The shortest spelling of a path. -/
def toText (path : Path) : Text :=
  if path.anchor.isEmpty && path.parts.isEmpty then
    ['.']
  else
    path.anchor ++ joinWith ['/'] path.parts

end Path

end GradleScript
