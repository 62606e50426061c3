import GradleScript.Scan.Balanced

namespace GradleScript

/-!
# Declarations

After `def` or a type name comes either a variable, whose name is the last word before the equals
sign or the end of the line, or a function, which contributes nothing and is skipped.
-/

/-- Whether a character may stand between a declaring word and the end of the declared name. -/
def isDeclarationChar (ch : Char) : Bool :=
  ch != '=' && ch != '\n' && ch != '('

/-- What is left after a function's parameter list and, when one follows, its body. -/
def afterFunction (text : Text) : Text :=
  let afterParameters := parentheses.after text
  match dropWhitespace afterParameters with
  | '{' :: body =>
      braces.after ('{' :: body)
  | _ =>
      afterParameters

/-- A function is skipped forward. -/
theorem afterFunction_suffix (text : Text) : afterFunction text <:+ text := by
  have parametersSkipped := parentheses.after_suffix text
  have blanksSkipped := dropWhitespace_suffix (parentheses.after text)
  unfold afterFunction
  dsimp only
  split
  · next body shape =>
      rw [shape] at blanksSkipped
      exact (braces.after_suffix _).trans (blanksSkipped.trans parametersSkipped)
  · exact parametersSkipped

/--
The name declared after a declaring word, and what is left.  The name is empty when nothing is
declared or a function was skipped; the equals sign or line end after a name is left.
-/
def readDeclaration (text : Text) : Text × Text :=
  match text.dropWhile isDeclarationChar with
  | '(' :: parameters =>
      ([], afterFunction ('(' :: parameters))
  | remaining =>
      (lastWord (text.takeWhile isDeclarationChar), remaining)

/-- A declaration is read forward. -/
theorem readDeclaration_suffix (text : Text) : (readDeclaration text).2 <:+ text := by
  have headSkipped := List.dropWhile_suffix isDeclarationChar (l := text)
  unfold readDeclaration
  split
  · next parameters shape =>
      rw [shape] at headSkipped
      exact (afterFunction_suffix _).trans headSkipped
  · exact headSkipped

end GradleScript
