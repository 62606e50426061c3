namespace GradleScript

/-!
# Texts

A build script, its keys and its values are texts: sequences of characters, read from the front.
This module fixes that type, the blank characters, the order of texts, and what it means to trim a
text and to take its last word.
-/

/-- A text, as the list of its characters. -/
abbrev Text := List Char

/--
Whether a character is blank: one of the separators of any script, or a control character that
separates fields, lines or pages.  The zero-width space and the byte order mark are not blank.
-/
def isBlank (ch : Char) : Bool :=
  let code := ch.toNat
  (0x09 ≤ code && code ≤ 0x0D) || (0x1C ≤ code && code ≤ 0x20) || code == 0x85 || code == 0xA0 ||
    code == 0x1680 || (0x2000 ≤ code && code ≤ 0x200A) || code == 0x2028 || code == 0x2029 ||
    code == 0x202F || code == 0x205F || code == 0x3000

/-- A text without the blanks at its end. -/
def stripEnd (text : Text) : Text :=
  (text.reverse.dropWhile isBlank).reverse

/-- A text without the blanks at its beginning and at its end. -/
def strip (text : Text) : Text :=
  stripEnd (text.dropWhile isBlank)

/-- The last maximal run of characters that are not blank; empty when there is none. -/
def lastWord (text : Text) : Text :=
  ((text.reverse.dropWhile isBlank).takeWhile fun ch => !isBlank ch).reverse

/-- The pieces of a text between the occurrences of a separator; always at least one piece. -/
def splitOn (separator : Char) : Text → List Text
  | [] =>
      [[]]
  | ch :: rest =>
      if ch == separator then
        [] :: splitOn separator rest
      else
        match splitOn separator rest with
        | [] =>
            [[ch]]
        | piece :: pieces =>
            (ch :: piece) :: pieces

/-- The texts of a list, with a separating text between each two neighbours. -/
def joinWith (separator : Text) : List Text → Text
  | [] =>
      []
  | [text] =>
      text
  | text :: next :: rest =>
      text ++ separator ++ joinWith separator (next :: rest)

/-- A text with its ASCII capital letters in lower case. -/
def lowerAscii (text : Text) : Text :=
  text.map Char.toLower

/-- Whether a text comes before another one, or is the same, by the codes of its characters. -/
def comesBefore : Text → Text → Bool
  | [], _ =>
      true
  | _ :: _, [] =>
      false
  | first :: firstRest, second :: secondRest =>
      if first == second then
        comesBefore firstRest secondRest
      else
        first < second

end GradleScript
