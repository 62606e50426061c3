import GradleScript.Proofs.Block.Stored

namespace GradleScript

/-!
# Storing where no list is shared

Where no list is at the same time the value of a variable, storing is simple: it changes the entries
and the journal, each by itself.
-/

/-- A frame that shares no list has no sharing to end. -/
theorem Frame.unshare_eq
    {frame : Frame}
    (unshared : frame.shared = [])
    (name : Text) :
    frame.unshare name = frame := by
  unfold Frame.unshare
  rw [unshared, List.filter_nil, ← unshared]

namespace State

/-- Whether no list of the bodies being read is shared. -/
structure Unshared (state : State) : Prop where
  frame : state.frame.shared = []
  outer : ∀ suspended ∈ state.outer, suspended.frame.shared = []

namespace Unshared

variable {state : State}

/-- Entries may be stored without sharing any list. -/
theorem withEntries
    (unshared : state.Unshared)
    (entries : Mapping) :
    (state.withEntries entries).Unshared :=
  ⟨unshared.frame, unshared.outer⟩

/-- A journal may be written without sharing any list. -/
theorem withJournal
    (unshared : state.Unshared)
    (journal : Journal) :
    (state.withJournal journal).Unshared :=
  ⟨unshared.frame, unshared.outer⟩

/-- The body of a block is entered without sharing any list. -/
theorem enterBlock
    (unshared : state.Unshared)
    (key : Text) :
    (state.enterBlock key).Unshared := by
  refine ⟨rfl, ?_⟩
  intro suspended member
  rcases List.mem_cons.mp member with isFirst | isOuter
  · rw [isFirst]
    exact unshared.frame
  · exact unshared.outer suspended isOuter

/-- A state that shares no list has no sharing to end. -/
theorem unshare_eq
    (unshared : state.Unshared)
    (name : Text) :
    state.unshare name = state := by
  have outers :
      (state.outer.map fun suspended =>
        { suspended with frame := suspended.frame.unshare name }) = state.outer := by
    refine (List.map_congr_left ?_).trans (List.map_id _)
    intro suspended member
    rw [Frame.unshare_eq (unshared.outer suspended member)]
    rfl
  unfold unshare
  rw [outers, Frame.unshare_eq unshared.frame]

/-- Where no list is shared, a variable is written in the journal alone. -/
theorem setVariable_eq
    (unshared : state.Unshared)
    (name : Text) (value : Value) :
    state.setVariable name value = state.withJournal (state.session.journal.set name value) := by
  unfold setVariable
  rw [unshared.unshare_eq]

/-- Variables are written in the journal only. -/
theorem setVariables_eq
    (unshared : state.Unshared)
    (entries : Mapping) :
    state.setVariables entries = state.withJournal (state.session.journal.update entries) := by
  unfold setVariables Journal.update
  induction entries generalizing state with
  | nil =>
      rfl
  | cons entry entries inductionHypothesis =>
      rw [List.foldl_cons, unshared.setVariable_eq, inductionHypothesis (unshared.withJournal _)]
      rfl

/-- Where no list is shared, a value is added to the entries alone. -/
theorem addEntry_eq
    (unshared : state.Unshared)
    (key : Text) (value : Value) :
    state.addEntry key value = state.withEntries (state.frame.entries.add key value) := by
  have notShared : (state.withEntries (state.frame.entries.add key value)).frame.shared = [] :=
    unshared.frame
  unfold addEntry growShared
  rw [notShared]
  rfl

/-- Outside the dependencies a value is recorded in the entries only. -/
theorem record_eq
    (unshared : state.Unshared)
    (outside : state.session.interpolation.inDependencies = false)
    (key : Text) (value : Value) :
    state.record key value = state.withEntries (state.frame.entries.add key value) := by
  unfold record
  rw [outside, unshared.addEntry_eq]
  rfl

/-- Inside the dependencies a value that is no list is also written under its key. -/
theorem record_eq_of_inside
    (unshared : state.Unshared)
    (inside : state.session.interpolation.inDependencies = true)
    (key : Text) {value : Value}
    (noList : value.items? = none) :
    state.record key value =
      (state.withEntries (state.frame.entries.add key value)).withJournal
        (state.session.journal.set key value) := by
  unfold record
  rw [inside, unshared.addEntry_eq, (unshared.withEntries _).setVariable_eq, noList]
  simp
  rfl

/-- Where no list is shared, storing a value of its own under a key ends no sharing. -/
theorem dropShared_eq
    (unshared : state.Unshared)
    (key : Text) :
    state.dropShared key = state := by
  unfold dropShared
  rw [unshared.frame, List.filter_nil, ← unshared.frame]

/-- The entries of a global block are written as variables. -/
theorem storeBlock_eq_of_global
    (unshared : state.Unshared)
    {key : Text} {nested entries : Mapping}
    (isGlobal : globalBlockKeys.contains key = true)
    (combined :
      Mapping.mergeValue (state.frame.entries.get? key) (.mapping nested) = .mapping entries) :
    state.storeBlock key nested =
      (state.withEntries (state.frame.entries.put key (.mapping entries))).withJournal
        ((state.session.journal.update entries).report
          (.globalVariables key entries.length)) := by
  unfold storeBlock
  simp only [isGlobal, combined]
  rw [(unshared.withEntries _).dropShared_eq, (unshared.withEntries _).setVariables_eq]
  rfl

/-- Any other block is stored in the entries only. -/
theorem storeBlock_eq
    (unshared : state.Unshared)
    (key : Text)
    (notGlobal : globalBlockKeys.contains key = false)
    (nested : Mapping) :
    state.storeBlock key nested =
      state.withEntries
        (state.frame.entries.put key
          (Mapping.mergeValue (state.frame.entries.get? key) (.mapping nested))) := by
  unfold storeBlock
  simp only [notGlobal]
  rw [(unshared.withEntries _).dropShared_eq]

end Unshared

/-- Where filling a block has changed its entries and the journal, leaving it stores them. -/
theorem leaveBody_enterBlock
    (state : State) (key : Text)
    (keyNotEmpty : key ≠ [])
    (entries : Mapping) (journal : Journal) :
    (((state.enterBlock key).withEntries entries).withJournal journal).leaveBody =
      (state.withJournal journal).storeBlock key entries := by
  have keyed : key.isEmpty = false := by simpa using keyNotEmpty
  change
    (((state.enterBlock key).withEntries entries).withJournal journal).resume
      ⟨state.frame, .block key state.session.interpolation.inDependencies⟩ state.outer = _
  unfold resume
  simp only [keyed, Bool.false_eq_true, if_false]
  rfl

end State

end GradleScript
