namespace GradleScript

/-!
# Ranges of code points

Character properties that no short rule gives are listed as tables of inclusive ranges.
-/

/-- The code points from `first` to `last`, both included. -/
structure CodeRange where
  first : Nat
  last : Nat

namespace CodeRange

/-- Whether a code point lies in the range. -/
def covers (range : CodeRange) (code : Nat) : Bool :=
  range.first ≤ code && code ≤ range.last

/-- Whether some range of a table covers a code point. -/
def anyCovers (table : Array CodeRange) (code : Nat) : Bool :=
  table.any fun range => range.covers code

end CodeRange

end GradleScript
