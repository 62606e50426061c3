import GradleScript.Block.Store

namespace GradleScript

/-!
# Storing does not read

Whatever is stored, the text that is left stays the same, and so does the number of bodies around
the current one.  Going on with an enclosing body leaves one body less.  Variables are written in
the journal, and otherwise a write can only end or begin the sharing of lists.
-/

namespace Suspended

/-- A waiting frame, apart from the sharing of its lists, which a nested body may end. -/
def unshared (suspended : Suspended) : Suspended :=
  { suspended with frame := { suspended.frame with shared := [] } }

end Suspended

namespace State

/-! ## Writing variables -/

/-- Whether a state comes of another one by writing a journal, apart from what
lists are shared. -/
def Writes (state : State) (journal : Journal) (next : State) : Prop :=
  ∃ (shared : List Text) (outer : List Suspended),
    next =
        { state.withJournal journal with
          frame := { state.frame with shared := shared }
          outer := outer } ∧
      outer.map Suspended.unshared = state.outer.map Suspended.unshared

/-- A state comes of itself by writing nothing. -/
theorem Writes.refl
    (state : State) :
    state.Writes state.session.journal state :=
  ⟨state.frame.shared, state.outer, rfl, rfl⟩

/-- One write after the other is a write of the later journal. -/
theorem Writes.trans
    {state between next : State} {journal later : Journal}
    (first : state.Writes journal between)
    (second : between.Writes later next) :
    state.Writes later next := by
  obtain ⟨_, _, rfl, sameOuter⟩ := first
  obtain ⟨shared, outer, rfl, sameOuterLater⟩ := second
  exact ⟨shared, outer, rfl, sameOuterLater.trans sameOuter⟩

/-- No write reads. -/
theorem Writes.rest
    {state next : State} {journal : Journal}
    (writes : state.Writes journal next) :
    next.session.rest = state.session.rest := by
  obtain ⟨_, _, rfl, _⟩ := writes
  rfl

/-- No write changes the entries. -/
theorem Writes.entries
    {state next : State} {journal : Journal}
    (writes : state.Writes journal next) :
    next.frame.entries = state.frame.entries := by
  obtain ⟨_, _, rfl, _⟩ := writes
  rfl

/-- No write enters or leaves a body. -/
theorem Writes.length_outer
    {state next : State} {journal : Journal}
    (writes : state.Writes journal next) :
    next.outer.length = state.outer.length := by
  obtain ⟨_, _, rfl, sameOuter⟩ := writes
  simpa using congrArg List.length sameOuter

/-- Sharing a list writes nothing. -/
theorem Writes.share
    {state next : State} {journal : Journal}
    (writes : state.Writes journal next)
    (key : Text) :
    state.Writes journal (next.share key) := by
  obtain ⟨shared, outer, rfl, sameOuter⟩ := writes
  unfold State.share
  split
  · exact ⟨shared, outer, rfl, sameOuter⟩
  · exact ⟨key :: shared, outer, rfl, sameOuter⟩

/-- A variable is written in the journal. -/
theorem writes_setVariable
    (state : State) (name : Text) (value : Value) :
    state.Writes (state.session.journal.set name value) (state.setVariable name value) := by
  refine ⟨_, _, rfl, ?_⟩
  unfold unshare
  rw [List.map_map]
  rfl

/-- Entries are written in the journal as it is updated with them. -/
theorem writes_setVariables
    (state : State) (entries : Mapping) :
    state.Writes (state.session.journal.update entries) (state.setVariables entries) := by
  unfold setVariables Journal.update
  induction entries generalizing state with
  | nil =>
      exact .refl state
  | cons entry entries inductionHypothesis =>
      exact (state.writes_setVariable entry.1 entry.2).trans (inductionHypothesis _)

/-- Extra properties are written in the journal as it is updated with them. -/
theorem writes_setExtVariables
    (state : State) (entries : Mapping) :
    state.Writes (state.session.journal.updateExt entries) (state.setExtVariables entries) := by
  unfold setExtVariables Journal.updateExt Journal.update
  induction Journal.extEntries entries generalizing state with
  | nil =>
      exact .refl state
  | cons entry marked inductionHypothesis =>
      have written := state.writes_setVariable entry.1 entry.2
      rw [List.foldl_cons, List.foldl_cons]
      dsimp only
      split
      · have shared := written.share entry.1
        have sameJournal :
            ((state.setVariable entry.1 entry.2).share entry.1).session.journal =
              state.session.journal.set entry.1 entry.2 := by
          unfold State.share
          split <;> rfl
        have later := inductionHypothesis ((state.setVariable entry.1 entry.2).share entry.1)
        rw [sameJournal] at later
        exact shared.trans later
      · exact written.trans (inductionHypothesis _)

/-! ## The text that is left -/

/-- Adding to the list of a variable does not read. -/
@[simp] theorem rest_growShared
    (state : State) (key : Text) (items : List Value) :
    (state.growShared key items).session.rest = state.session.rest := by
  unfold growShared
  split <;> rfl

/-- Sharing a list concerns the frame alone. -/
@[simp] theorem session_share
    (state : State) (key : Text) :
    (state.share key).session = state.session := by
  unfold share
  split <;> rfl

/-- Writing variables does not read. -/
@[simp] theorem rest_setVariables
    (state : State) (entries : Mapping) :
    (state.setVariables entries).session.rest = state.session.rest :=
  (state.writes_setVariables entries).rest

/-- Writing extra properties does not read. -/
@[simp] theorem rest_setExtVariables
    (state : State) (entries : Mapping) :
    (state.setExtVariables entries).session.rest = state.session.rest :=
  (state.writes_setExtVariables entries).rest

/-- Adding a value to a key does not read. -/
@[simp] theorem rest_addEntry
    (state : State) (key : Text) (value : Value) :
    (state.addEntry key value).session.rest = state.session.rest := by
  simp [addEntry, withEntries]

/-- Recording a value does not read. -/
@[simp] theorem rest_record
    (state : State) (key : Text) (value : Value) :
    (state.record key value).session.rest = state.session.rest := by
  unfold record
  dsimp only
  split
  · split <;> simp [setVariable, withJournal, unshare]
  · simp

/-- Recording the text of a value reads no more of the script. -/
@[simp] theorem rest_recordText
    (state : State) (key raw : Text) :
    (state.recordText key raw).session.rest = state.session.rest := by
  unfold recordText
  dsimp only
  split <;> simp

@[simp] theorem session_withStatement
    (state : State) (statement : Statement) :
    (state.withStatement statement).session = state.session :=
  rfl

/-- Ending a statement does not read. -/
@[simp] theorem rest_flush
    (state : State) :
    state.flush.session.rest = state.session.rest := by
  unfold flush
  dsimp only
  split <;> simp

/-- Storing a closure does not read. -/
@[simp] theorem rest_storeClosure
    (state : State) (key : Text) (value : Value) :
    (state.storeClosure key value).session.rest = state.session.rest := by
  unfold storeClosure
  split
  · simp [withEntries]
  · rfl

/-- Storing a block does not read. -/
@[simp] theorem rest_storeBlock
    (state : State) (key : Text) (nested : Mapping) :
    (state.storeBlock key nested).session.rest = state.session.rest := by
  unfold storeBlock
  dsimp only
  split
  · simp [withJournal, dropShared, withEntries]
  · rfl

/-- Merging a body into the one around it does not read. -/
@[simp] theorem rest_mergeAnonymous
    (state : State) (nested : Frame) :
    (state.mergeAnonymous nested).session.rest = state.session.rest := by
  simp [mergeAnonymous, withEntries]

/-- The body around a finished one goes on where the finished one has come to. -/
@[simp] theorem rest_resume
    (state : State) (suspended : Suspended) (outer : List Suspended) :
    (state.resume suspended outer).session.rest = state.session.rest := by
  unfold resume
  dsimp only
  split
  · simp
  · simp
  · split <;> simp [withInterpolation]

/-! ## The enclosing bodies -/

/-- Writing variables neither enters nor leaves a body. -/
@[simp] theorem length_outer_setVariables
    (state : State) (entries : Mapping) :
    (state.setVariables entries).outer.length = state.outer.length :=
  (state.writes_setVariables entries).length_outer

/-- Writing extra properties neither enters nor leaves a body. -/
@[simp] theorem length_outer_setExtVariables
    (state : State) (entries : Mapping) :
    (state.setExtVariables entries).outer.length = state.outer.length :=
  (state.writes_setExtVariables entries).length_outer

/-- Adding to the list of a variable leaves the bodies around. -/
@[simp] theorem outer_growShared
    (state : State) (key : Text) (items : List Value) :
    (state.growShared key items).outer = state.outer := by
  unfold growShared
  split <;> rfl

/-- Going on with the body around a finished one leaves the bodies around that one. -/
@[simp] theorem length_outer_resume
    (state : State) (suspended : Suspended) (outer : List Suspended) :
    (state.resume suspended outer).outer.length = outer.length := by
  unfold resume
  dsimp only
  split
  · unfold storeClosure
    split <;> simp [withEntries, dropShared]
  · unfold storeClosure
    split <;> simp [withEntries, dropShared]
  · split
    · simp [mergeAnonymous, withEntries, withInterpolation]
    · unfold storeBlock
      dsimp only
      split <;> simp [withJournal, dropShared, withEntries, withInterpolation]

end State

end GradleScript
