import GradleScript.Proofs.Block.Stored
import GradleScript.Proofs.Plain.Syntax

namespace GradleScript.Plain

/-!
# What plain lines store

A line of a plain script acts on a state whose lexical side is at rest: an assignment records its
value, and a block is entered, filled and left.  On the entries of the body this is the meaning of
the line, and the lexical side is left as it was.
-/

mutual

/-- What a line does to a state. -/
def Line.store (state : State) : Line → State
  | .filler _ =>
      state
  | .assignment _ assignment =>
      state.record assignment.key.word assignment.operand.value
  | .block _ key _ body _ =>
      (storeLines (state.enterBlock key.word) body).leaveBody

/-- What lines do to a state, one after another. -/
def storeLines (state : State) : List Line → State
  | [] =>
      state
  | line :: lines =>
      storeLines (line.store state) lines

end

/-! ## What lines leave as it is, and what they mean -/

mutual

/-- A line leaves the lexical side as it was. -/
theorem Line.lexical_store
    (state : State) : (line : Line) → (line.store state).lexical = state.lexical
  | .filler _ =>
      rfl
  | .assignment _ assignment =>
      State.lexical_record state assignment.key.word assignment.operand.value
  | .block _ key _ body _ =>
      State.lexical_leaveBody (lexical_storeLines (state.enterBlock key.word) body)

/-- What lines do is not seen when the text is read on. -/
theorem lexical_storeLines
    (state : State) : (lines : List Line) → (storeLines state lines).lexical = state.lexical
  | [] =>
      rfl
  | line :: lines =>
      (lexical_storeLines (line.store state) lines).trans (line.lexical_store state)

end

mutual

/-- A line makes of the entries what it means. -/
theorem Line.entries_store
    (state : State) :
    (line : Line) → (line.store state).frame.entries = line.meaning state.frame.entries
  | .filler _ =>
      rfl
  | .assignment _ assignment =>
      State.entries_record state assignment.key.word assignment.operand.value
  | .block _ key _ body _ => by
      have bodyEntries := entries_storeLines (state.enterBlock key.word) body
      have left :=
        State.entries_leaveBody (lexical_storeLines (state.enterBlock key.word) body) key.notEmpty
      rw [bodyEntries] at left
      exact left

/-- What lines do to the entries is what they mean. -/
theorem entries_storeLines
    (state : State) :
    (lines : List Line) → (storeLines state lines).frame.entries =
      linesMeaning state.frame.entries lines
  | [] =>
      rfl
  | line :: lines => by
      rw [storeLines, linesMeaning, entries_storeLines, line.entries_store]

end

end GradleScript.Plain
