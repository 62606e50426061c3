import GradleScript.Text.Basic

namespace GradleScript

/-!
# Cursors

A cursor is a place in a text: what has been passed and what is left.  Everything that scans works
on the text that is left; a cursor adds the position and the view backwards.
-/

/-- A place in a text: the characters before it, nearest first, and those from it on. -/
structure Cursor where
  passed : Text := []
  rest : Text
  deriving Repr, DecidableEq

namespace Cursor

/-- The cursor at the beginning of a text. -/
def ofText (text : Text) : Cursor :=
  { rest := text }

/-- The whole text a cursor stands in. -/
def text (cursor : Cursor) : Text :=
  cursor.passed.reverse ++ cursor.rest

/-- The number of characters before the cursor. -/
def position (cursor : Cursor) : Nat :=
  cursor.passed.length

/-- Whether nothing is left. -/
def isDone (cursor : Cursor) : Bool :=
  cursor.rest.isEmpty

/-- The character at an offset from the cursor, when it lies in the text. -/
def look (cursor : Cursor) : Int → Option Char
  | .ofNat ahead =>
      cursor.rest[ahead]?
  | .negSucc behind =>
      cursor.passed[behind]?

/-- The next character, if any, and the cursor after it. -/
def next (cursor : Cursor) : Option Char × Cursor :=
  match cursor.rest with
  | [] =>
      (none, cursor)
  | ch :: rest =>
      (some ch, ⟨ch :: cursor.passed, rest⟩)

/-- Whether the text that is left begins with a word. -/
def sees (cursor : Cursor) (word : Text) : Bool :=
  word.isPrefixOf cursor.rest

/-- Move forward to where only `remaining` is left. -/
def moveTo (cursor : Cursor) (remaining : Text) : Cursor :=
  let count := cursor.rest.length - remaining.length
  ⟨(cursor.rest.take count).reverse ++ cursor.passed, remaining⟩

/-- Moving forward to an end part of what is left stays in the same text. -/
theorem text_moveTo
    (cursor : Cursor)
    {remaining : Text}
    (atEndPart : remaining <:+ cursor.rest) :
    (cursor.moveTo remaining).text = cursor.text := by
  obtain ⟨skipped, restShape⟩ := atEndPart
  simp [moveTo, text, ← restShape]

end Cursor

end GradleScript
