import GradleScript.Value.Display

namespace GradleScript

/-!
# Variables

The names that `$name` can stand for, each with the last value written under it.  One table lives
for a whole run and is shared by all its passes.
-/

/-- The marker that extra properties carry in front of their name. -/
def extMarker : Text :=
  "ext.".toList

/-- A name without one leading marker of extra properties. -/
def stripExt (name : Text) : Text :=
  if extMarker.isPrefixOf name then
    name.drop extMarker.length
  else
    name

/-- Names with the last value written under each, in the order of their first writing. -/
structure Variables where
  values : Mapping := []
  deriving DecidableEq

namespace Variables

/-- The value of a name, if it has one. -/
def get? (table : Variables) (name : Text) : Option Value :=
  table.values.get? name

/-- Whether a name has a value. -/
def contains (table : Variables) (name : Text) : Bool :=
  table.values.contains name

/-- The number of names. -/
def size (table : Variables) : Nat :=
  table.values.length

/-- Write a value under a name. -/
def set (table : Variables) (name : Text) (value : Value) : Variables :=
  ⟨table.values.put name value⟩

/-- Add items to the list under a name; a name without a list is left as it is. -/
def grow (table : Variables) (name : Text) (items : List Value) : Variables :=
  match table.get? name with
  | some (.list present) =>
      table.set name (.list (present ++ items))
  | _ =>
      table

end Variables

end GradleScript
