import GradleScript.Proofs.Block.Movement

namespace GradleScript

/-!
# The stored side of a state

What has come of the reading is the same at every place of a line: the stored side of a state is the
state with its lexical side at rest.  Recording a value, and entering, filling and leaving a block,
act on the stored side alone.
-/

namespace State

/-- The stored side of a state, with the lexical side at rest. -/
def stored (state : State) : State :=
  { state with
    session := {
      state.session with
      rest := []
      quote := {}
      comment := {}
      interpolation := state.session.interpolation.closed }
    frame := {
      state.frame with
      statement := {}
      lineStart := true
      previous := none } }

/-- Enter the block of a key. -/
def enterBlock (state : State) (key : Text) : State :=
  (state.suspend (.block key state.session.interpolation.inDependencies)
    state.frame.mode).withInterpolation
      { state.session.interpolation with
        inDependencies :=
          state.session.interpolation.inDependencies || key == dependenciesKey }

/-- Leave the current body for the one around it. -/
def leaveBody (state : State) : State :=
  match state.outer with
  | [] =>
      state
  | suspended :: outer =>
      state.resume suspended outer

/-- A recorded value is added to the entries, whatever becomes of the variables. -/
theorem entries_record
    (state : State) (key : Text) (value : Value) :
    (state.record key value).frame.entries = state.frame.entries.add key value := by
  unfold record
  dsimp only
  split
  · split
    · unfold share addEntry growShared
      split <;> split <;> rfl
    · unfold addEntry growShared
      split <;> rfl
  · unfold addEntry growShared
    split <;> rfl

/-- Writing variables leaves the entries. -/
theorem entries_setVariables
    (state : State) (entries : Mapping) :
    (state.setVariables entries).frame.entries = state.frame.entries :=
  (state.writes_setVariables entries).entries

/-- A block is stored as it is merged into a mapping. -/
theorem entries_storeBlock
    (state : State) (key : Text) (nested : Mapping) :
    (state.storeBlock key nested).frame.entries =
      state.frame.entries.put key
        (Mapping.mergeValue (state.frame.entries.get? key) (.mapping nested)) := by
  unfold storeBlock
  dsimp only
  split
  · exact entries_setVariables _ _
  · rfl

/-! ## Recording with the lexical side at rest -/

/-- The list of a variable is added to on the stored side alone. -/
theorem stored_growShared
    (state : State) (key : Text) (items : List Value) :
    (state.growShared key items).stored = state.stored.growShared key items := by
  unfold growShared
  by_cases shared : state.frame.shared.contains key = true
  · have storedShared : state.stored.frame.shared.contains key = true := shared
    rw [if_pos shared, if_pos storedShared]
    rfl
  · have storedShared : ¬state.stored.frame.shared.contains key = true := shared
    rw [if_neg shared, if_neg storedShared]

/-- A value is added to a key on the stored side alone. -/
theorem stored_addEntry
    (state : State) (key : Text) (value : Value) :
    (state.addEntry key value).stored = state.stored.addEntry key value :=
  stored_growShared (state.withEntries (state.frame.entries.add key value)) key [value]

/-- A variable is written on the stored side alone. -/
theorem stored_setVariable
    (state : State) (name : Text) (value : Value) :
    (state.setVariable name value).stored = state.stored.setVariable name value :=
  rfl

/-- A list is shared on the stored side alone. -/
theorem stored_share
    (state : State) (key : Text) :
    (state.share key).stored = state.stored.share key := by
  unfold share
  split <;> rfl

/-- A value is recorded on the stored side alone, restricted or not. -/
theorem stored_record
    (state : State) (key : Text) (value : Value) :
    (state.record key value).stored = state.stored.record key value := by
  unfold record
  dsimp only
  by_cases inDependencies : state.session.interpolation.inDependencies = true
  · have storedInDependencies : state.stored.session.interpolation.inDependencies = true :=
      inDependencies
    rw [if_pos inDependencies, if_pos storedInDependencies]
    by_cases isNew :
        ((state.frame.entries.get? key).isNone && value.items?.isSome) = true
    · have storedIsNew :
          ((state.stored.frame.entries.get? key).isNone && value.items?.isSome) = true :=
        isNew
      rw [if_pos isNew, if_pos storedIsNew, stored_share, stored_setVariable, stored_addEntry]
    · have storedIsNew :
          ¬((state.stored.frame.entries.get? key).isNone && value.items?.isSome) = true :=
        isNew
      rw [if_neg isNew, if_neg storedIsNew, stored_setVariable, stored_addEntry]
  · have storedInDependencies : ¬state.stored.session.interpolation.inDependencies = true :=
      inDependencies
    rw [if_neg inDependencies, if_neg storedInDependencies, stored_addEntry]

/-- The text of a value is recorded on the stored side alone. -/
theorem stored_recordText
    (state : State) (key raw : Text) :
    (state.recordText key raw).stored = state.stored.recordText key raw := by
  have modeSame : state.stored.frame.mode = state.frame.mode := rfl
  unfold recordText
  dsimp only
  rw [modeSame]
  split
  · rfl
  · exact stored_record state key _

/-- A text with something in it is recorded as its scalar. -/
theorem recordText_of_notEmpty
    (state : State) {key raw : Text}
    (keyNotEmpty : key ≠ [])
    (rawNotEmpty : strip raw ≠ []) :
    state.recordText key raw = state.record key (Value.ofScalar (trimQuotes (strip raw))) := by
  unfold recordText
  dsimp only
  rw [if_neg (by simp [keyNotEmpty, rawNotEmpty])]

/-- What the end of a statement stores depends on the statement and on what is stored. -/
theorem stored_flush_congr
    {first second : State}
    (sameStored : first.stored = second.stored)
    (sameStatement : first.frame.statement = second.frame.statement) :
    first.flush.stored = second.flush.stored := by
  have stored_withStatement (state : State) (statement : Statement) :
      (state.withStatement statement).stored = state.stored :=
    rfl
  unfold flush
  dsimp only
  rw [sameStatement]
  split <;> simp only [stored_withStatement, stored_recordText, sameStored]

/-- Variables are written on the stored side alone. -/
theorem stored_setVariables
    (state : State) (entries : Mapping) :
    (state.setVariables entries).stored = state.stored.setVariables entries := by
  unfold setVariables
  induction entries generalizing state with
  | nil =>
      rfl
  | cons entry rest inductionHypothesis =>
      rw [List.foldl_cons, List.foldl_cons, inductionHypothesis, stored_setVariable]

/-- A block is stored on the stored side alone. -/
theorem stored_storeBlock
    (state : State) (key : Text) (nested : Mapping) :
    (state.storeBlock key nested).stored = state.stored.storeBlock key nested := by
  have entriesSame : state.stored.frame.entries = state.frame.entries := rfl
  unfold storeBlock
  dsimp only
  rw [entriesSame]
  split
  · next entries isGlobal combined =>
      have written :=
        stored_setVariables
          ((state.withEntries (state.frame.entries.put key
            (Mapping.mergeValue (state.frame.entries.get? key) (.mapping nested)))).dropShared key)
          entries
      have stored_withJournal (state : State) (journal : Journal) :
          (state.withJournal journal).stored = state.stored.withJournal journal :=
        rfl
      have journalOfStored (state : State) :
          state.session.journal = state.stored.session.journal :=
        rfl
      rw [stored_withJournal, journalOfStored, written]
      rfl
  · rfl

/-- A block is left on the stored side as it is left in reading. -/
theorem stored_resume
    (state : State) {suspended : Suspended} {key : Text} {inDependencies : Bool}
    (opening : suspended.opening = .block key inDependencies)
    (keyNotEmpty : key ≠ [])
    (idle : suspended.frame.Idle)
    (outer : List Suspended) :
    (state.resume suspended outer).stored = state.stored.resume suspended outer := by
  have keyed : key.isEmpty = false := by simpa using keyNotEmpty
  unfold resume
  simp only [opening, keyed, Bool.false_eq_true, if_false]
  rw [stored_storeBlock]
  have entriesSame : state.stored.frame.entries = state.frame.entries := rfl
  rw [entriesSame]
  refine congrArg (fun enclosing : State => enclosing.storeBlock key state.frame.entries) ?_
  obtain ⟨⟨mode, entries, shared, statement, lineStart, previous⟩, _⟩ := suspended
  obtain ⟨statementEmpty, lineStarted, noPrevious⟩ := idle
  dsimp only at statementEmpty lineStarted noPrevious
  subst statementEmpty lineStarted noPrevious
  rfl

/-! ## Leaving a block -/

/-- While a block is filled, the body around it waits as it was when the block was entered. -/
theorem exists_around_of_lexical
    {state inner : State} {key : Text}
    (inBlock : inner.lexical = (state.enterBlock key).lexical) :
    ∃ suspended outer,
      inner.outer = suspended :: outer ∧
      suspended.opening = .block key state.session.interpolation.inDependencies ∧
      suspended.unshared.frame = { state.frame with shared := [] } ∧
      outer.map Suspended.unshared = state.outer.map Suspended.unshared := by
  have outers :
      inner.outer.map Suspended.unshared =
        Suspended.unshared ⟨state.frame, .block key state.session.interpolation.inDependencies⟩ ::
          state.outer.map Suspended.unshared :=
    congrArg (fun body => body.outer) inBlock
  cases around : inner.outer with
  | nil =>
      simp [around] at outers
  | cons suspended outer =>
      rw [around, List.map_cons] at outers
      obtain ⟨suspendedShape, outerSame⟩ := List.cons.inj outers
      have openingShape := congrArg Suspended.opening suspendedShape
      have frameShape := congrArg Suspended.frame suspendedShape
      exact ⟨suspended, outer, rfl, openingShape, frameShape, outerSame⟩

/-- Leaving a block gives the body around it its lexical side back. -/
theorem lexical_leaveBody
    {state inner : State} {key : Text}
    (inBlock : inner.lexical = (state.enterBlock key).lexical) :
    inner.leaveBody.lexical = state.lexical := by
  obtain ⟨suspended, outer, around, opening, frameShape, outerSame⟩ :=
    exists_around_of_lexical inBlock
  have sessions :
      { inner.session with journal := {} } =
        { (state.enterBlock key).session with journal := {} } :=
    congrArg (fun body => body.session) inBlock
  have scripts : inner.wholeScript = state.wholeScript :=
    congrArg (fun body => body.wholeScript) inBlock
  have frames :
      { suspended.frame with entries := [], shared := [] } =
        { state.frame with entries := [], shared := [] } :=
    congrArg (fun frame : Frame => { frame with entries := [] }) frameShape
  have sessionsAfter :=
    congrArg
      (fun session : Session =>
        { session with
          interpolation :=
            { session.interpolation with
              inDependencies := state.session.interpolation.inDependencies } })
      sessions
  unfold leaveBody
  rw [around]
  dsimp only
  rw [lexical_resume, opening]
  unfold lexical
  simp only [outerSame, withInterpolation, resumedInterpolation, State.mk.injEq]
  exact ⟨sessionsAfter, frames, trivial, scripts⟩

/-- Leaving a block merges its entries into those of the body around it. -/
theorem entries_leaveBody
    {state inner : State} {key : Text}
    (inBlock : inner.lexical = (state.enterBlock key).lexical)
    (keyNotEmpty : key ≠ []) :
    inner.leaveBody.frame.entries =
      state.frame.entries.put key
        (Mapping.mergeValue (state.frame.entries.get? key) (.mapping inner.frame.entries)) := by
  obtain ⟨suspended, outer, around, opening, frameShape, _⟩ := exists_around_of_lexical inBlock
  have entriesShape : suspended.frame.entries = state.frame.entries :=
    congrArg (fun frame => frame.entries) frameShape
  have keyed : key.isEmpty = false := by simpa using keyNotEmpty
  unfold leaveBody
  rw [around]
  dsimp only
  unfold resume
  simp only [opening, keyed, Bool.false_eq_true, if_false]
  rw [entries_storeBlock]
  exact entriesShape ▸ rfl

end State

end GradleScript
