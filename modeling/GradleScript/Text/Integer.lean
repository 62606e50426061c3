import GradleScript.Text.Basic

namespace GradleScript

/-!
# Written integers

An integer may be written with blanks around it, with a sign, in the decimal digits of any script,
and with single underscores between digits.
-/

/-- The zero of every decimal script from `0x80` on; the other nine digits follow it. -/
def zeroDigits : List Nat := [
  0x0660, 0x06F0, 0x07C0, 0x0966, 0x09E6, 0x0A66, 0x0AE6, 0x0B66, 0x0BE6, 0x0C66, 0x0CE6,
  0x0D66, 0x0DE6, 0x0E50, 0x0ED0, 0x0F20, 0x1040, 0x1090, 0x17E0, 0x1810, 0x1946, 0x19D0,
  0x1A80, 0x1A90, 0x1B50, 0x1BB0, 0x1C40, 0x1C50, 0xA620, 0xA8D0, 0xA900, 0xA9D0, 0xA9F0,
  0xAA50, 0xABF0, 0xFF10, 0x104A0, 0x10D30, 0x11066, 0x110F0, 0x11136, 0x111D0, 0x112F0,
  0x11450, 0x114D0, 0x11650, 0x116C0, 0x11730, 0x118E0, 0x11950, 0x11C50, 0x11D50, 0x11DA0,
  0x16A60, 0x16AC0, 0x16B50, 0x1D7CE, 0x1D7D8, 0x1D7E2, 0x1D7EC, 0x1D7F6, 0x1E140, 0x1E2F0,
  0x1E950, 0x1FBF0]

/-- The value of a decimal digit of any script. -/
def digitValue? (ch : Char) : Option Nat :=
  if ch.isDigit then
    some (ch.toNat - '0'.toNat)
  else
    (zeroDigits.find? fun base => base ≤ ch.toNat && ch.toNat < base + 10).map fun base =>
      ch.toNat - base

/-- Whether a character may stand around an integer: a blank other than the four separators of
fields and records. -/
def isIntegerBlank (ch : Char) : Bool :=
  isBlank ch && !(0x1C ≤ ch.toNat && ch.toNat ≤ 0x1F)

/-- The values of digits with single underscores between them; none for anything else. -/
def digits? : Text → Option (List Nat)
  | [] =>
      none
  | [ch] =>
      (digitValue? ch).map fun digit => [digit]
  | ch :: '_' :: rest =>
      match digitValue? ch, digits? rest with
      | some digit, some others => some (digit :: others)
      | _, _ => none
  | ch :: rest =>
      match digitValue? ch, digits? rest with
      | some digit, some others => some (digit :: others)
      | _, _ => none

/-- The most digits an integer may be written with. -/
def maxDigits : Nat :=
  4300

/-- The number that digits denote, when there are not too many of them. -/
def natural? (text : Text) : Option Nat :=
  match digits? text with
  | some digits =>
      if digits.length ≤ maxDigits then
        some (digits.foldl (fun number digit => 10 * number + digit) 0)
      else
        none
  | none =>
      none

/-- The integer a text denotes, if it denotes one. -/
def integer? (text : Text) : Option Int :=
  let written :=
    ((text.dropWhile isIntegerBlank).reverse.dropWhile isIntegerBlank).reverse
  match written with
  | '-' :: digits =>
      (natural? digits).map fun number => -(number : Int)
  | '+' :: digits =>
      (natural? digits).map Int.ofNat
  | digits =>
      (natural? digits).map Int.ofNat

end GradleScript
