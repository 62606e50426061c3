import GradleScript.Block.Run

namespace GradleScript

/-!
# What is read and what is stored

A state has two sides.  The lexical side says where the reading stands: the text that is left, the
contexts, the statement, and the bodies around the current one.  The stored side says what has come
of the reading: the entries of the current body, the variables, and which lists are shared.

Storing changes the stored side only, so whatever is known of the lexical side survives it.
-/

/-- The contexts of a place in a text: the literal, the comment and the name being read there. -/
structure Contexts where
  quote : Quote
  comment : Comment
  interpolation : Interpolation

/-- The contexts that a session has come to. -/
def Session.contexts (session : Session) : Contexts where
  quote := session.quote
  comment := session.comment
  interpolation := session.interpolation

namespace State

/-- The lexical side of a state. -/
def lexical (state : State) : State :=
  { state with
    session := { state.session with journal := {} }
    frame := { state.frame with entries := [], shared := [] }
    outer := state.outer.map Suspended.unshared }

/-! ## Storing keeps the lexical side -/

@[simp] theorem lexical_withEntries
    (state : State) (entries : Mapping) :
    (state.withEntries entries).lexical = state.lexical :=
  rfl

@[simp] theorem lexical_withJournal
    (state : State) (journal : Journal) :
    (state.withJournal journal).lexical = state.lexical :=
  rfl

/-- Ending the sharing of a variable is not seen when the text is read. -/
@[simp] theorem lexical_unshare
    (state : State) (name : Text) :
    (state.unshare name).lexical = state.lexical := by
  simp [unshare, lexical, Frame.unshare, Suspended.unshared]

/-- Sharing a list is not seen when the text is read. -/
@[simp] theorem lexical_share
    (state : State) (key : Text) :
    (state.share key).lexical = state.lexical := by
  unfold share
  split <;> rfl

@[simp] theorem lexical_dropShared
    (state : State) (key : Text) :
    (state.dropShared key).lexical = state.lexical :=
  rfl

/-- Adding to the list of a variable is not seen when the text is read. -/
@[simp] theorem lexical_growShared
    (state : State) (key : Text) (items : List Value) :
    (state.growShared key items).lexical = state.lexical := by
  unfold growShared
  split <;> simp

/-- A variable that is written is not seen when the text is read. -/
@[simp] theorem lexical_setVariable
    (state : State) (name : Text) (value : Value) :
    (state.setVariable name value).lexical = state.lexical := by
  simp [setVariable]

/-- Writing keeps the lexical side. -/
theorem Writes.lexical
    {state next : State} {journal : Journal}
    (writes : state.Writes journal next) :
    next.lexical = state.lexical := by
  obtain ⟨_, _, rfl, sameOuter⟩ := writes
  unfold State.lexical
  rw [← sameOuter]
  rfl

/-- Variables that are written are not seen when the text is read. -/
@[simp] theorem lexical_setVariables
    (state : State) (entries : Mapping) :
    (state.setVariables entries).lexical = state.lexical :=
  (state.writes_setVariables entries).lexical

/-- Extra properties that become variables are not seen when the text is read. -/
@[simp] theorem lexical_setExtVariables
    (state : State) (entries : Mapping) :
    (state.setExtVariables entries).lexical = state.lexical :=
  (state.writes_setExtVariables entries).lexical

/-- A value that is added to a key is not seen when the text is read. -/
@[simp] theorem lexical_addEntry
    (state : State) (key : Text) (value : Value) :
    (state.addEntry key value).lexical = state.lexical := by
  simp [addEntry]

/-- A recorded value is not seen when the text is read. -/
@[simp] theorem lexical_record
    (state : State) (key : Text) (value : Value) :
    (state.record key value).lexical = state.lexical := by
  unfold record
  dsimp only
  split
  · split <;> simp
  · simp

/-- A recorded text is not seen when the text is read, whatever it is parsed to. -/
@[simp] theorem lexical_recordText
    (state : State) (key raw : Text) :
    (state.recordText key raw).lexical = state.lexical := by
  unfold recordText
  dsimp only
  split <;> simp

/-- The statement belongs to the lexical side. -/
theorem lexical_withStatement
    (state : State) (statement : Statement) :
    (state.withStatement statement).lexical = state.lexical.withStatement statement :=
  rfl

/-- The end of a statement leaves nothing to be seen but that there is no statement. -/
@[simp] theorem lexical_flush
    (state : State) :
    state.flush.lexical = state.lexical.withStatement {} := by
  unfold flush
  dsimp only
  split <;> simp [lexical_withStatement]

/-- A stored closure is not seen when the text is read. -/
@[simp] theorem lexical_storeClosure
    (state : State) (key : Text) (value : Value) :
    (state.storeClosure key value).lexical = state.lexical := by
  unfold storeClosure
  split <;> simp

/-- A stored block is not seen when the text is read. -/
@[simp] theorem lexical_storeBlock
    (state : State) (key : Text) (nested : Mapping) :
    (state.storeBlock key nested).lexical = state.lexical := by
  unfold storeBlock
  dsimp only
  split <;> simp

/-- A body that is merged into the one around it is not seen when the text is read. -/
@[simp] theorem lexical_mergeAnonymous
    (state : State) (nested : Frame) :
    (state.mergeAnonymous nested).lexical = state.lexical := by
  unfold mergeAnonymous
  rw [lexical_setExtVariables]
  rfl

/-- The interpolation with which the body around a finished one is gone on with. -/
def resumedInterpolation (state : State) : Opening → Interpolation
  | .block _ inDependencies =>
      { state.session.interpolation with inDependencies := inDependencies }
  | .closure _ _ =>
      state.session.interpolation

/-- Going on with an enclosing body stores the nested one and gives the enclosing body its frame and
its context back. -/
theorem lexical_resume
    (state : State) (suspended : Suspended) (outer : List Suspended) :
    (state.resume suspended outer).lexical =
      ({ state with frame := suspended.frame, outer := outer }.withInterpolation
        (state.resumedInterpolation suspended.opening)).lexical := by
  unfold resume
  cases opening : suspended.opening with
  | closure key repositories =>
      cases repositories <;> simp [resumedInterpolation, withInterpolation]
  | block key inDependencies =>
      dsimp only
      split <;> simp [resumedInterpolation]

/-! ## What keeps the contexts -/

/-- The contexts belong to the lexical side. -/
theorem contexts_of_lexical
    {first second : State}
    (same : first.lexical = second.lexical) :
    first.session.contexts = second.session.contexts :=
  congrArg (fun body => body.session.contexts) same

/-- Recording a value keeps the contexts. -/
theorem contexts_record
    (state : State) (key : Text) (value : Value) :
    (state.record key value).session.contexts = state.session.contexts :=
  contexts_of_lexical (lexical_record state key value)

/-- Recording the text of a value keeps the contexts. -/
theorem contexts_recordText
    (state : State) (key raw : Text) :
    (state.recordText key raw).session.contexts = state.session.contexts :=
  contexts_of_lexical (lexical_recordText state key raw)

/-- Storing a closure keeps the contexts. -/
theorem contexts_storeClosure
    (state : State) (key : Text) (value : Value) :
    (state.storeClosure key value).session.contexts = state.session.contexts :=
  contexts_of_lexical (lexical_storeClosure state key value)

/-- The end of a statement keeps the contexts. -/
theorem contexts_flush
    (state : State) :
    state.flush.session.contexts = state.session.contexts :=
  congrArg (fun body => body.session.contexts) (lexical_flush state)

/-- A call keeps the contexts, whether it is kept or dropped. -/
theorem contexts_readCall
    (state : State) (text : Text) :
    (state.readCall text).session.contexts = state.session.contexts := by
  unfold readCall
  split
  · rfl
  · split
    · unfold keepCall
      dsimp only
      split
      · rfl
      · exact contexts_recordText (state.withRest _) _ _
    · rfl

/-- An array literal keeps the contexts. -/
theorem contexts_readArrayValue
    (state : State) (text : Text) :
    (state.readArrayValue text).session.contexts = state.session.contexts :=
  contexts_record (state.withRest _) _ _

/-- A key keeps the contexts, whatever it leads to. -/
theorem contexts_dispatchKey
    (state : State) :
    state.dispatchKey.session.contexts = state.session.contexts := by
  unfold dispatchKey
  dsimp only
  split
  · split <;> rfl
  · split <;> rfl

end State

end GradleScript
