import GradleScript.Scan.CharRole

namespace GradleScript

/-!
# Quoted literals

While a script is scanned, a quote opens a literal and the next equal quote closes it, unless the
character just before it is a backslash.
-/

/-- Whether the scan is inside a literal, and the quote that opened the latest one. -/
structure Quote where
  isOpen : Bool := false
  mark : Option Char := none
  deriving Repr, DecidableEq

namespace Quote

/--
The state after one more character.  A character that follows a backslash neither opens nor closes
a literal.
-/
def next (quote : Quote) (ch : Char) (previous : Option Char) : Quote :=
  if previous == some '\\' then
    quote
  else if quote.isOpen then
    if quote.mark == some ch then
      { quote with isOpen := false }
    else
      quote
  else if isQuote ch then
    ⟨true, some ch⟩
  else
    quote

/-- No literal is open, and none has been. -/
def closed : Quote :=
  {}

end Quote

end GradleScript
