import GradleScript.Scan.Balanced
import GradleScript.Scan.Keyword

namespace GradleScript

/-!
# Conditionals

A build script is read without running it, so no branch of a conditional is taken: the whole chain
from `if` to the last `else` is skipped.
-/

/-- What is left after one branch: a braced body, or else the rest of the line. -/
def afterBranch (text : Text) : Text :=
  match dropWhitespace text with
  | '{' :: body =>
      braces.after ('{' :: body)
  | statement =>
      statement.dropWhile fun ch => ch != '\n'

/-- A branch is skipped forward. -/
theorem afterBranch_suffix (text : Text) : afterBranch text <:+ text := by
  have blanksSkipped := dropWhitespace_suffix text
  unfold afterBranch
  split
  · next body shape =>
      rw [shape] at blanksSkipped
      exact (braces.after_suffix _).trans blanksSkipped
  · exact (List.dropWhile_suffix _).trans blanksSkipped

/-- What is left after a condition and the branch it guards. -/
def afterGuarded (text : Text) : Text :=
  afterBranch (parentheses.after text)

/-- A condition and its branch are skipped forward. -/
theorem afterGuarded_suffix (text : Text) : afterGuarded text <:+ text :=
  (afterBranch_suffix _).trans (parentheses.after_suffix text)

/--
What is left after the alternatives that follow a branch.  When no `else` follows, the text is
left as it is, whitespace included.
-/
def afterAlternatives (text : Text) : Text :=
  if _elseFollows : startsWithWord elseWord (dropWhitespace text) then
    let alternative := dropWhitespace ((dropWhitespace text).drop elseWord.length)
    if startsWithWord ifWord alternative then
      afterAlternatives (afterGuarded (alternative.drop ifWord.length))
    else
      afterBranch alternative
  else
    text
termination_by text.length
decreasing_by
  have wordFits := length_le_of_startsWithWord _elseFollows
  have blanks := (dropWhitespace_suffix text).length_le
  have moreBlanks :=
    (dropWhitespace_suffix ((dropWhitespace text).drop elseWord.length)).length_le
  have guarded :=
    (afterGuarded_suffix
      ((dropWhitespace ((dropWhitespace text).drop elseWord.length)).drop ifWord.length)).length_le
  have wordLength : elseWord.length = 4 := rfl
  simp only [List.length_drop] at moreBlanks guarded
  omega

/-- Alternatives are skipped forward. -/
theorem afterAlternatives_suffix (text : Text) : afterAlternatives text <:+ text := by
  fun_induction afterAlternatives text with
  | case1 text _ alternative _ inductionHypothesis =>
      exact inductionHypothesis.trans
        ((afterGuarded_suffix _).trans
          ((List.drop_suffix _ _).trans
            ((dropWhitespace_suffix _).trans
              ((List.drop_suffix _ _).trans (dropWhitespace_suffix text)))))
  | case2 text _ alternative _ =>
      exact (afterBranch_suffix _).trans
        ((dropWhitespace_suffix _).trans
          ((List.drop_suffix _ _).trans (dropWhitespace_suffix text)))
  | case3 text =>
      exact List.suffix_rfl

/-- What is left after the conditional whose `if` has just been read. -/
def afterConditional (text : Text) : Text :=
  afterAlternatives (afterGuarded text)

/-- A conditional is skipped forward. -/
theorem afterConditional_suffix (text : Text) : afterConditional text <:+ text :=
  (afterAlternatives_suffix _).trans (afterGuarded_suffix text)

end GradleScript
