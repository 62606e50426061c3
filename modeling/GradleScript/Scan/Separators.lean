import GradleScript.Scan.CharRole
import GradleScript.Text.Alphanumeric
import GradleScript.Text.Basic

namespace GradleScript

/-!
# Separators and words

A function that skips takes the text from a place on and gives the text that is left, which is
always an end part of the given text.
-/

/-- What is left after the separators of the current line. -/
def dropSpaces (text : Text) : Text :=
  text.dropWhile isSpace

/-- What is left after separators and line ends. -/
def dropWhitespace (text : Text) : Text :=
  text.dropWhile isWhitespace

/-- Whether a text begins with a word that is not continued by a name character. -/
def startsWithWord (word text : Text) : Bool :=
  word.isPrefixOf text && !(text.drop word.length).head?.any isNameChar

/-- The characters by which a text is longer than an end part of it. -/
def takenFrom (text remaining : Text) : Text :=
  text.take (text.length - remaining.length)

/-- The separators of a line are skipped forward. -/
theorem dropSpaces_suffix (text : Text) : dropSpaces text <:+ text :=
  List.dropWhile_suffix isSpace

/-- Separators and line ends are skipped forward. -/
theorem dropWhitespace_suffix (text : Text) : dropWhitespace text <:+ text :=
  List.dropWhile_suffix isWhitespace

/-- A text that begins with a word is at least as long as the word. -/
theorem length_le_of_startsWithWord
    {word text : Text}
    (starts : startsWithWord word text = true) :
    word.length ≤ text.length := by
  have wordFirst : word <+: text := by
    simp only [startsWithWord, Bool.and_eq_true, List.isPrefixOf_iff_prefix] at starts
    exact starts.1
  exact wordFirst.length_le

end GradleScript
