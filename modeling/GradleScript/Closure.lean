import GradleScript.Value.Mapping

namespace GradleScript

/-!
# Closures

Some blocks do not denote a mapping of their statements.  A closure says how the body of such a
block is read and what it denotes; which names have one is a table that a caller may extend.
-/

/-- How the statements of a body are read. -/
structure Mode where
  /-- Calls are kept as keys instead of being skipped. -/
  keepCalls : Bool := false
  /-- Keys without a value are kept. -/
  keepEmpty : Bool := false
  deriving Repr, DecidableEq

/-- A special reading of the body of a block. -/
inductive Closure where
  /-- One repository for each directive of the body. -/
  | repositories
  /-- The items of an array literal. -/
  | array
  /-- The mapping of the body, read in a fixed mode. -/
  | body (mode : Mode)
  deriving Repr, DecidableEq

/-- The closures registered for block names, latest registration first. -/
abbrev Closures := List (Text × Closure)

namespace Closures

/-- The name of the block that lists repositories. -/
def repositoriesKey : Text :=
  "repositories".toList

/-- Register a closure for a name, in place of an earlier one. -/
def register (closures : Closures) (name : Text) (closure : Closure) : Closures :=
  (name, closure) :: closures

/-- The closures every run has. -/
def standard : Closures :=
  register [] repositoriesKey .repositories

/-- The closure of a name, if it has one. -/
def find? (closures : Closures) (name : Text) : Option Closure :=
  (List.find? (fun entry => entry.1 == name) closures).map Prod.snd

end Closures

/-- A directive's name: a call without arguments goes by the name of what is called. -/
def callName (key : Text) : Text :=
  if ['(', ')'].isSuffixOf key then
    key.take (key.length - 2)
  else
    key

/-- The kind of a repository that is only named. -/
def bareRepositoryKind : Text :=
  "unknown".toList

/-- The repository that one directive denotes. -/
def directiveRepository (key : Text) (value : Value) : Value :=
  if value.isEmpty then
    .repository bareRepositoryKind [("name".toList, .text (callName key))]
  else
    match value with
    | .mapping entries =>
        .repository (callName key) entries
    | _ =>
        .repository (callName key) [("value".toList, value)]

/-- The repositories that the entries of a body denote, one for each. -/
def repositoriesOf (entries : Mapping) : List Value :=
  entries.map fun entry => directiveRepository entry.1 entry.2

end GradleScript
