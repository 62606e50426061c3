import GradleScript.Block.Step
import GradleScript.Block.StoreLemmas

namespace GradleScript.State

/-!
# Every turn reads on

Every turn takes at least the character it is the turn of, and what is left afterwards is an end
part of what was left before.
-/

/-- A name that ends is looked up without reading. -/
@[simp] theorem rest_spliceName
    (state : State) :
    state.spliceName.session.rest = state.session.rest :=
  rfl

/-- The character that ends a name without braces is left to be read. -/
@[simp] theorem rest_settle
    (state : State) (ch : Char) :
    (state.settle ch).session.rest = state.session.rest := by
  unfold settle
  split
  · rfl
  · split
    · rfl
    · split <;> rfl
    · split <;> simp

/-- A conditional or a call takes at least its opening parenthesis. -/
theorem rest_readCall
    (state : State) (rest : Text) :
    (state.readCall ('(' :: rest)).session.rest <:+ rest := by
  have callTaken := parentheses.after_cons_suffix '(' rest rfl rfl
  unfold readCall
  split
  · exact (afterAlternatives_suffix _).trans ((afterBranch_suffix _).trans callTaken)
  · split
    · unfold keepCall
      dsimp only
      split
      · exact (dropSpaces_suffix _).trans callTaken
      · simpa [withRest] using (dropSpaces_suffix _).trans callTaken
    · exact callTaken

/-- An array literal takes at least its opening bracket. -/
theorem rest_readArrayValue
    (state : State) (rest : Text) :
    (state.readArrayValue ('[' :: rest)).session.rest <:+ rest := by
  simpa [readArrayValue, withRest] using readArray_cons_suffix rest

/-- Opening a block takes what is left on, and an array closure its items too. -/
theorem rest_openBlock
    (closures : Closures) (state : State) (rest : Text) :
    (openBlock closures state rest).session.rest <:+ rest := by
  unfold openBlock
  dsimp only
  split
  · simpa [withRest] using readArray_suffix rest
  · exact List.suffix_rfl
  · exact List.suffix_rfl
  · exact List.suffix_rfl

/-- Dispatching a key takes what is left on. -/
theorem rest_dispatchKey
    (state : State) :
    state.dispatchKey.session.rest <:+ state.session.rest := by
  unfold dispatchKey
  dsimp only
  split
  · have declared := readDeclaration_suffix state.session.rest
    split <;> exact declared
  · split
    · exact afterConditional_suffix _
    · exact List.suffix_rfl

/-- Closing a block takes what is left on. -/
theorem rest_closeBlock
    {state next : State} {rest : Text}
    (closed : state.closeBlock rest = .running next) :
    next.session.rest = rest := by
  unfold closeBlock at closed
  dsimp only at closed
  split at closed
  · cases closed
    simp [withRest]
  · split at closed
    · cases closed
      simp [withRest, withJournal]
    · cases closed

/-- The turn of a call or of an array literal is the one that the statement gives. -/
theorem statement_turn_eq
    {state : State} {ch : Char} {rest : Text} {taken : Turn}
    (turn : state.turn ch rest = taken)
    (inStatement : taken = .call ∨ taken = .array) :
    state.frame.statement.turn ch = taken := by
  unfold State.turn at turn
  dsimp only at turn
  split at turn
  · simp [← turn] at inStatement
  · split at turn
    · split at turn <;> simp [← turn] at inStatement
    · split at turn
      · simp [← turn] at inStatement
      · split at turn
        · simp [← turn] at inStatement
        · split at turn
          · simp [← turn] at inStatement
          · split at turn
            · simp [← turn] at inStatement
            · split at turn
              · simp [← turn] at inStatement
              · exact turn

/-- The turn of a call is that of an opening parenthesis. -/
theorem eq_of_turn_call
    {state : State} {ch : Char} {rest : Text}
    (turn : state.turn ch rest = .call) :
    ch = '(' := by
  have ofStatement := statement_turn_eq turn (.inl rfl)
  grind [Statement.turn]

/-- The turn of an array literal is that of an opening bracket. -/
theorem eq_of_turn_array
    {state : State} {ch : Char} {rest : Text}
    (turn : state.turn ch rest = .array) :
    ch = '[' := by
  have ofStatement := statement_turn_eq turn (.inr rfl)
  grind [Statement.turn]

/-- Every turn takes at least the character it is the turn of. -/
theorem rest_advance
    {closures : Closures} {state next : State} {ch : Char} {rest : Text}
    (advanced : state.advance closures ch rest = .running next) :
    next.session.rest <:+ rest := by
  unfold advance at advanced
  dsimp only at advanced
  generalize (state.settle ch) = settled at advanced
  cases turn : settled.turn ch rest with
  | comment =>
      rw [turn] at advanced
      cases advanced
      unfold readComment
      dsimp only
      split <;> exact List.suffix_rfl
  | namePart =>
      rw [turn] at advanced
      cases advanced
      unfold readNamePart
      dsimp only
      split <;> exact List.suffix_rfl
  | nameEnd =>
      rw [turn] at advanced
      cases advanced
      exact List.suffix_rfl
  | lineEnd =>
      rw [turn] at advanced
      cases advanced
      simp [readLineEnd, withPrevious, withLineStart, withQuote, withRest]
  | indentation =>
      rw [turn] at advanced
      cases advanced
      exact List.suffix_rfl
  | commentStart kind =>
      rw [turn] at advanced
      cases advanced
      exact List.drop_suffix 1 rest
  | nameStart =>
      rw [turn] at advanced
      cases advanced
      unfold readNameStart
      dsimp only
      split
      · exact List.suffix_cons _ _
      · exact List.suffix_rfl
  | quoted =>
      rw [turn] at advanced
      cases advanced
      exact List.suffix_rfl
  | call =>
      rw [turn] at advanced
      cases advanced
      rw [eq_of_turn_call turn]
      exact rest_readCall (settled.withLineStart false) rest
  | array =>
      rw [turn] at advanced
      cases advanced
      rw [eq_of_turn_array turn]
      exact rest_readArrayValue (settled.withLineStart false) rest
  | blockStart =>
      rw [turn] at advanced
      cases advanced
      exact rest_openBlock closures (settled.withLineStart false) rest
  | blockEnd =>
      rw [turn] at advanced
      exact ⟨[], rest_closeBlock advanced⟩
  | keyEnd =>
      rw [turn] at advanced
      cases advanced
      unfold readKeyEnd
      dsimp only
      split
      · exact List.suffix_rfl
      · exact rest_dispatchKey _
  | plain =>
      rw [turn] at advanced
      cases advanced
      unfold readPlain
      dsimp only
      split <;> exact List.suffix_rfl

end GradleScript.State
