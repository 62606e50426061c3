import GradleScript.Value.Basic

namespace GradleScript

/-!
# Mappings

A mapping associates keys with values in the order in which the keys first came.  A statement adds
to a mapping: a key that comes again collects its values in a list.  A block merges into a mapping:
mappings under the same key are merged in turn, and any other value is replaced.
-/

/-- Keys with their values, in insertion order. -/
abbrev Mapping := List (Text × Value)

namespace Mapping

/-- The keys, in order. -/
def keys (entries : Mapping) : List Text :=
  entries.map Prod.fst

/-- The value under a key, if it is there. -/
def get? : Mapping → Text → Option Value
  | [], _ =>
      none
  | (present, value) :: rest, key =>
      if present == key then
        some value
      else
        get? rest key

/-- Whether a key is there. -/
def contains (entries : Mapping) (key : Text) : Bool :=
  (entries.get? key).isSome

/-- Write a value under a key, at its place when it is there and at the end otherwise. -/
def put : Mapping → Text → Value → Mapping
  | [], key, value =>
      [(key, value)]
  | (present, current) :: rest, key, value =>
      if present == key then
        (present, value) :: rest
      else
        (present, current) :: put rest key value

/-- The value that stands under a key after one more value came for it. -/
def collect : Option Value → Value → Value
  | none, value => value
  | some (.list items), value => .list (items ++ [value])
  | some present, value => .list [present, value]

/-- Record a value under a key, collecting the values of a repeated key.  An empty key is
ignored. -/
def add (entries : Mapping) (key : Text) (value : Value) : Mapping :=
  if key.isEmpty then
    entries
  else
    entries.put key (collect (entries.get? key) value)

mutual

/-- The value that stands under a key after a merge brought another one for it. -/
def mergeValue : Option Value → Value → Value
  | some (.mapping current), .mapping incoming => .mapping (merge current incoming)
  | _, incoming => incoming

/-- Merge the entries of a second mapping, in order, into a first one. -/
def merge : List (Text × Value) → List (Text × Value) → List (Text × Value)
  | current, [] =>
      current
  | current, (key, value) :: incoming =>
      merge (put current key (mergeValue (get? current key) value)) incoming

end

end Mapping

end GradleScript
