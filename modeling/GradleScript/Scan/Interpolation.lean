import GradleScript.Scan.CharRole
import GradleScript.Text.Basic

namespace GradleScript

/-!
# Interpolation

`$name` and `${name}` stand for the value of a variable.  While the name is read, the scan keeps
what it has of it, so that the source can be put back as it was written when the name is unknown.
A restricted scan interpolates only inside `dependencies` blocks.
-/

/-- The two ways to write an interpolation. -/
inductive NameForm where
  /-- `$name`, up to the first character that cannot belong to the name. -/
  | bare
  /-- `${name}`, up to the closing brace. -/
  | braced
  deriving Repr, DecidableEq

/-- Whether a character ends a bare name; it is not part of the name. -/
def endsBareName (ch : Char) : Bool :=
  isWhitespace ch || ch == '/' || ch == ':' || ch == ';' || isQuote ch

/-- The interpolation being read, if any, and whether one may start. -/
structure Interpolation where
  restricted : Bool := true
  inDependencies : Bool := false
  form : Option NameForm := none
  /-- The characters of the name, latest first. -/
  heard : Text := []
  deriving Repr, DecidableEq

namespace Interpolation

/-- The name as far as it has been read. -/
def name (interpolation : Interpolation) : Text :=
  interpolation.heard.reverse

/-- Whether a name is being read. -/
def isOpen (interpolation : Interpolation) : Bool :=
  interpolation.form.isSome

/-- Whether the name being read ends at a closing brace. -/
def isBraced (interpolation : Interpolation) : Bool :=
  interpolation.form == some .braced

/-- Whether a dollar sign starts an interpolation here. -/
def allowed (interpolation : Interpolation) : Bool :=
  !interpolation.restricted || interpolation.inDependencies

/-- The state in which a name is about to be read. -/
def opened (interpolation : Interpolation) (form : NameForm) : Interpolation :=
  { interpolation with form := some form, heard := [] }

/-- The state after a further piece of the name. -/
def extend (interpolation : Interpolation) (piece : Text) : Interpolation :=
  { interpolation with heard := piece.reverse ++ interpolation.heard }

/-- A further piece comes at the end of the name. -/
@[simp] theorem name_extend (interpolation : Interpolation) (piece : Text) :
    (interpolation.extend piece).name = interpolation.name ++ piece := by
  simp [name, extend]

/-- The state in which no name is read. -/
def closed (interpolation : Interpolation) : Interpolation :=
  { interpolation with form := none, heard := [] }

/-- The interpolation as it was written, up to the characters read so far. -/
def writtenSoFar (interpolation : Interpolation) : Text :=
  if interpolation.isBraced then
    '$' :: '{' :: interpolation.name
  else
    '$' :: interpolation.name

/-- The whole interpolation as it was written. -/
def written (interpolation : Interpolation) : Text :=
  if interpolation.isBraced then
    interpolation.writtenSoFar ++ ['}']
  else
    interpolation.writtenSoFar

end Interpolation

end GradleScript
