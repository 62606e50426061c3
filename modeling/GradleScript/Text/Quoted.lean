import GradleScript.Text.Basic
import GradleScript.Text.Printable

namespace GradleScript

/-!
# Quoted texts

A text is shown between quotes with every character that could be misread escaped: backslashes, the
quote in use, line ends, tabs, and characters that are not printable.  Single quotes are used unless
the text has a single quote and no double quote.
-/

/-- A hexadecimal digit, in lower case. -/
def hexDigit (digit : Nat) : Char :=
  if digit < 10 then
    Char.ofNat ('0'.toNat + digit)
  else
    Char.ofNat ('a'.toNat + (digit - 10))

/-- The last `width` hexadecimal digits of a number. -/
def hexDigits : Nat → Nat → Text
  | 0, _ =>
      []
  | width + 1, number =>
      hexDigits width (number / 16) ++ [hexDigit (number % 16)]

/-- The escape of a character by its code, with two, four or eight digits. -/
def codeEscape (ch : Char) : Text :=
  let code := ch.toNat
  if code < 0x100 then
    '\\' :: 'x' :: hexDigits 2 code
  else if code < 0x10000 then
    '\\' :: 'u' :: hexDigits 4 code
  else
    '\\' :: 'U' :: hexDigits 8 code

/-- A character as it stands between quotes of the given kind. -/
def quotedChar (mark ch : Char) : Text :=
  if ch == mark || ch == '\\' then
    ['\\', ch]
  else if ch == '\n' then
    ['\\', 'n']
  else if ch == '\r' then
    ['\\', 'r']
  else if ch == '\t' then
    ['\\', 't']
  else if isPrintable ch then
    [ch]
  else
    codeEscape ch

/-- The quote that surrounds a text. -/
def quoteMark (text : Text) : Char :=
  if text.contains '\'' && !text.contains '"' then
    '"'
  else
    '\''

/-- A text between quotes. -/
def quoted (text : Text) : Text :=
  let mark := quoteMark text
  mark :: text.flatMap (quotedChar mark) ++ [mark]

end GradleScript
