import GradleScript.Block.State
import GradleScript.Value.ArrayLiteral

namespace GradleScript

/-!
# What statements and blocks store

A finished statement stores its value in the entries of its body, and inside `dependencies` also
under a variable.  A finished block is stored by the body around it.

A list under a key and the value of a variable can be one and the same list: then whatever is added
to the list under the key is seen through the variable too.  A frame names these keys in `shared`.
A key is shared from the moment its list is written under a variable until that variable is written
again or the key gets another value.
-/

/-- The name of the block inside which variables are always interpolated. -/
def dependenciesKey : Text :=
  "dependencies".toList

/-- The names of the blocks all of whose entries become variables. -/
def globalBlockKeys : List Text :=
  ["buildscript".toList, "configure".toList, "ext".toList, "project.ext".toList]

namespace Frame

/-- Forget the sharing of every key that stands for a name. -/
def unshare (frame : Frame) (name : Text) : Frame :=
  { frame with shared := frame.shared.filter fun key => stripExt key != name }

end Frame

namespace State

/-- Forget, in every body being read, the sharing of the keys that stand for a name. -/
def unshare (state : State) (name : Text) : State :=
  { state with
    frame := state.frame.unshare name
    outer := state.outer.map fun suspended =>
      { suspended with frame := suspended.frame.unshare name } }

/-- Note that the list under a key has just been written under the key's variable. -/
def share (state : State) (key : Text) : State :=
  if (stripExt key).isEmpty then
    state
  else
    { state with frame := { state.frame with shared := key :: state.frame.shared } }

/-- Note that a key has got a value that no variable holds. -/
def dropShared (state : State) (key : Text) : State :=
  { state with
    frame := { state.frame with shared := state.frame.shared.filter fun other => other != key } }

/-- Pass items that were added to the list under a key on to the variable that shares the list. -/
def growShared (state : State) (key : Text) (items : List Value) : State :=
  if state.frame.shared.contains key then
    state.withJournal (state.session.journal.grow (stripExt key) items)
  else
    state

/-- Write a variable. -/
def setVariable (state : State) (name : Text) (value : Value) : State :=
  (state.unshare (stripExt name)).withJournal (state.session.journal.set name value)

/-- Write every entry of a mapping as a variable. -/
def setVariables (state : State) (entries : Mapping) : State :=
  entries.foldl (fun written entry => written.setVariable entry.1 entry.2) state

/-- Record a value under a key of the current body. -/
def addEntry (state : State) (key : Text) (value : Value) : State :=
  (state.withEntries (state.frame.entries.add key value)).growShared key [value]

/-- Record a value under a key; inside `dependencies` it becomes a variable as well. -/
def record (state : State) (key : Text) (value : Value) : State :=
  if state.session.interpolation.inDependencies then
    let written := (state.addEntry key value).setVariable key value
    if (state.frame.entries.get? key).isNone && value.items?.isSome then
      written.share key
    else
      written
  else
    state.addEntry key value

/-- Store the text of a value under a key, unless there is nothing to store. -/
def recordText (state : State) (key raw : Text) : State :=
  let text := strip raw
  if key.isEmpty || (text.isEmpty && !state.frame.mode.keepEmpty) then
    state
  else
    state.record key (Value.ofScalar (trimQuotes text))

/-- End the current statement.  A word alone becomes a key without a value. -/
def flush (state : State) : State :=
  let statement := state.frame.statement
  if statement.key.isEmpty && !statement.isFresh then
    (state.recordText (strip statement.part) []).withStatement {}
  else
    (state.recordText statement.key statement.part).withStatement {}

/-- Store what a closure denotes: the items of a list come after those of an earlier list, and any
other value takes the place of an earlier one. -/
def storeClosure (state : State) (key : Text) (value : Value) : State :=
  match state.frame.entries.get? key, value with
  | some (.list present), .list items =>
      (state.withEntries (state.frame.entries.put key (.list (present ++ items)))).growShared
        key items
  | _, _ =>
      (state.withEntries (state.frame.entries.put key value)).dropShared key

/-- Store the mapping of a block: merged with an earlier mapping, and in place of any other value.
The entries of a global block become variables. -/
def storeBlock (state : State) (key : Text) (nested : Mapping) : State :=
  let combined := Mapping.mergeValue (state.frame.entries.get? key) (.mapping nested)
  let stored := (state.withEntries (state.frame.entries.put key combined)).dropShared key
  match globalBlockKeys.contains key, combined with
  | true, .mapping entries =>
      let written := stored.setVariables entries
      written.withJournal (written.session.journal.report (.globalVariables key entries.length))
  | _, _ =>
      stored

/-- Write the extra properties of a block without a key as variables; their lists are shared. -/
def setExtVariables (state : State) (entries : Mapping) : State :=
  (Journal.extEntries entries).foldl
    (fun written entry =>
      let next := written.setVariable entry.1 entry.2
      if entry.2.items?.isSome then next.share entry.1 else next)
    state

/-- Merge the entries of a block without a key into those of the body around it. -/
def mergeAnonymous (state : State) (nested : Frame) : State :=
  let merged := state.withEntries (Mapping.merge state.frame.entries nested.entries)
  let kept := state.frame.shared.filter fun key => !nested.entries.contains key
  setExtVariables
    { merged with frame := { merged.frame with shared := kept ++ nested.shared } }
    nested.entries

/-- Go on with the body around the current one, which is finished. -/
def resume (state : State) (suspended : Suspended) (outer : List Suspended) : State :=
  let enclosing := { state with frame := suspended.frame, outer := outer }
  match suspended.opening with
  | .closure key true =>
      enclosing.storeClosure key (.list (repositoriesOf state.frame.entries))
  | .closure key false =>
      enclosing.storeClosure key (.mapping state.frame.entries)
  | .block key inDependencies =>
      let left := enclosing.withInterpolation
        { state.session.interpolation with inDependencies := inDependencies }
      if key.isEmpty then
        left.mergeAnonymous state.frame
      else
        left.storeBlock key state.frame.entries

end State

end GradleScript
