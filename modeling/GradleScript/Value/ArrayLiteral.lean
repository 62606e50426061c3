import GradleScript.Value.Literal

namespace GradleScript

/-!
# Array literals

An array literal runs to the first closing bracket, or to the end of the text; it does not nest.
Its items are separated by commas, trimmed and unquoted, and items that come out empty are dropped.
-/

/-- The items written between the brackets of an array literal. -/
def arrayItems (content : Text) : List Text :=
  ((splitOn ',' content).map fun item => trimQuotes (strip item)).filter fun item => !item.isEmpty

/-- A text without an opening bracket at its front. -/
def dropArrayStart : Text → Text
  | '[' :: content => content
  | content => content

/-- The items of the array literal at the front of a text, and what is left after it. -/
def readArray (text : Text) : List Text × Text :=
  let content := dropArrayStart text
  (arrayItems (content.takeWhile fun ch => ch != ']'),
    (content.dropWhile fun ch => ch != ']').drop 1)

/-- An array literal is read forward. -/
theorem readArray_suffix (text : Text) : (readArray text).2 <:+ text := by
  have contentLeft : dropArrayStart text <:+ text := by
    unfold dropArrayStart
    split
    · exact List.suffix_cons _ _
    · exact List.suffix_rfl
  exact (List.drop_suffix 1 _).trans ((List.dropWhile_suffix _).trans contentLeft)

/-- An array literal takes at least its opening bracket. -/
theorem readArray_cons_suffix (rest : Text) : (readArray ('[' :: rest)).2 <:+ rest :=
  (List.drop_suffix 1 _).trans (List.dropWhile_suffix _)

end GradleScript
