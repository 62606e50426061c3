import GradleScript.Value.Mapping

namespace GradleScript

/-!
# Events

Everything that happens to the variables during a run, and everything worth reporting, is an event.
The events of a run tell its whole story: replaying its writes gives the variables it leaves.
-/

/-- Which of the passes over the files of a run has been completed. -/
inductive PassLabel where
  /-- A pass over another file, made for its variables alone. -/
  | root
  /-- The pass over the main file that collects its variables. -/
  | first
  /-- The pass over the main file whose mapping is the result. -/
  | final
  deriving Repr, DecidableEq

/-- Something that happened during a run. -/
inductive Event where
  /-- A variable was written. -/
  | variableSet (name : Text) (value : Value)
  /-- The list held by a variable got further items, through the mapping that shares it. -/
  | variableGrown (name : Text) (items : List Value)
  /-- A name was looked up and replaced by its value. -/
  | nameResolved (name : Text)
  /-- A name was looked up and is not known. -/
  | nameUnresolved (name : Text)
  /-- A closing brace stood outside every block; the position is the one after it. -/
  | strayBlockEnd (position : Nat)
  /-- All entries of a block became variables. -/
  | globalVariables (block : Text) (count : Nat)
  /-- A pass over a file was completed, leaving so many keys and variables. -/
  | passComplete (path : Text) (label : PassLabel) (keys names : Nat)

end GradleScript
