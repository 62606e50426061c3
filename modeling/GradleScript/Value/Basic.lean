import GradleScript.Text.Basic

namespace GradleScript

/-!
# Values

A build script denotes a tree of values.  Mappings keep the order in which their keys were first
written, and a directive of a `repositories` block is a value of its own kind.
-/

/-- A value of a build script. -/
inductive Value where
  /-- The absence of a value. -/
  | null
  | boolean (flag : Bool)
  | integer (number : Int)
  | text (content : Text)
  | list (items : List Value)
  /-- A collection without an order.  No script denotes one, and it has no JSON form. -/
  | set (items : List Value)
  /-- Keys with their values, in insertion order. -/
  | mapping (entries : List (Text × Value))
  /-- One directive of a `repositories` block: its kind and what it says. -/
  | repository (kind : Text) (data : List (Text × Value))
  deriving Inhabited

namespace Value

/-- Whether a value says nothing: absent, false, zero, or without content. -/
def isEmpty : Value → Bool
  | .null => true
  | .boolean flag => !flag
  | .integer number => number == 0
  | .text content => content.isEmpty
  | .list items => items.isEmpty
  | .set items => items.isEmpty
  | .mapping entries => entries.isEmpty
  | .repository _ _ => false

/-- Whether an integer fits into a word of 64 bits, with its sign. -/
def fitsWord (number : Int) : Bool :=
  -0x8000000000000000 ≤ number && number ≤ 0x7FFFFFFFFFFFFFFF

/-- The items of a list; none for any other value. -/
def items? : Value → Option (List Value)
  | .list items => some items
  | _ => none

/-- The value of a scalar text: the two truth words are booleans, any other text is itself. -/
def ofScalar (text : Text) : Value :=
  if text == "true".toList then
    .boolean true
  else if text == "false".toList then
    .boolean false
  else
    .text text

mutual

/-- Whether two values are the same tree. -/
def same : Value → Value → Bool
  | .null, .null => true
  | .boolean first, .boolean second => first == second
  | .integer first, .integer second => first == second
  | .text first, .text second => first == second
  | .list first, .list second => sameItems first second
  | .set first, .set second => sameItems first second
  | .mapping first, .mapping second => sameEntries first second
  | .repository firstKind first, .repository secondKind second =>
      firstKind == secondKind && sameEntries first second
  | _, _ => false

/-- Whether two sequences have the same values at the same places. -/
def sameItems : List Value → List Value → Bool
  | [], [] => true
  | first :: firstRest, second :: secondRest =>
      same first second && sameItems firstRest secondRest
  | _, _ => false

/-- Whether two mappings have the same keys and values in the same order. -/
def sameEntries : List (Text × Value) → List (Text × Value) → Bool
  | [], [] => true
  | (firstKey, first) :: firstRest, (secondKey, second) :: secondRest =>
      firstKey == secondKey && same first second && sameEntries firstRest secondRest
  | _, _ => false

end

mutual

/-- Two values pass the comparison exactly when they are equal. -/
theorem same_iff : (first second : Value) → (same first second = true ↔ first = second)
  | .null, second => by
      cases second <;> simp [same]
  | .boolean _, second => by
      cases second <;> simp [same]
  | .integer _, second => by
      cases second <;> simp [same]
  | .text _, second => by
      cases second <;> simp [same]
  | .list items, second => by
      cases second <;> simp [same, sameItems_iff items]
  | .set items, second => by
      cases second <;> simp [same, sameItems_iff items]
  | .mapping entries, second => by
      cases second <;> simp [same, sameEntries_iff entries]
  | .repository _ data, second => by
      cases second <;> simp [same, sameEntries_iff data]

/-- Two sequences pass the comparison exactly when they are equal. -/
theorem sameItems_iff :
    (first second : List Value) → (sameItems first second = true ↔ first = second)
  | [], second => by
      cases second <;> simp [sameItems]
  | value :: rest, second => by
      cases second <;> simp [sameItems, same_iff value, sameItems_iff rest]

/-- Two mappings pass the comparison exactly when they are equal. -/
theorem sameEntries_iff :
    (first second : List (Text × Value)) → (sameEntries first second = true ↔ first = second)
  | [], second => by
      cases second <;> simp [sameEntries]
  | (key, value) :: rest, second => by
      match second with
      | [] =>
          simp [sameEntries]
      | (secondKey, secondValue) :: secondRest =>
          simp [sameEntries, same_iff value, sameEntries_iff rest, and_assoc]

end

instance : DecidableEq Value :=
  fun first second => decidable_of_iff (same first second = true) (same_iff first second)

end Value

end GradleScript
