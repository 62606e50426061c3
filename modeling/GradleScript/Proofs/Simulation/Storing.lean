import GradleScript.Proofs.Block.Bodies
import GradleScript.Proofs.Block.Stored

namespace GradleScript

/-!
# Two states that are stored into alike

Storing is a handful of elementary acts: entries are written, keys become shared or cease to be,
the journal is written, a body around is gone on with.  A relation between states that each of
these acts keeps is a store simulation; whatever is stored in two related states then leaves
related states.
-/

namespace State

/-- Change which keys of the current body share their list with a variable. -/
def withShared (state : State) (shared : List Text) : State :=
  { state with frame := { state.frame with shared := shared } }

/-- Change the bodies around the current one. -/
def withOuter (state : State) (outer : List Suspended) : State :=
  { state with outer := outer }

/-- Change the body that is being read. -/
def withFrame (state : State) (frame : Frame) : State :=
  { state with frame := frame }

/-- Change whether statements stand in `dependencies`. -/
def inContextOf (state : State) (inDependencies : Bool) : State :=
  state.withInterpolation { state.session.interpolation with inDependencies := inDependencies }

/-- Finishing a state without bodies around it gives what it has read and stored. -/
theorem unwind_of_alone
    {state : State}
    (alone : state.outer = []) :
    state.unwind = (state.session, state.frame.entries) := by
  unfold unwind
  split
  · rfl
  · next suspended outer around =>
      cases alone.symm.trans around

/-- Finishing a state goes on with the body around it. -/
theorem unwind_of_around
    {state : State} {suspended : Suspended} {outer : List Suspended}
    (around : state.outer = suspended :: outer) :
    state.unwind = (state.resume suspended outer).unwind := by
  rw [unwind]
  split
  · next alone =>
      cases around.symm.trans alone
  · next otherSuspended otherOuter otherAround =>
      cases around.symm.trans otherAround
      rfl

/-- Finishing a state begins with leaving its body. -/
theorem unwind_leaveBody
    (state : State) :
    state.leaveBody.unwind = state.unwind := by
  cases around : state.outer with
  | nil =>
      unfold leaveBody
      rw [around]
  | cons suspended outer =>
      rw [unwind_of_around around]
      unfold leaveBody
      rw [around]

/-- A relation between states with the same bodies that the elementary acts of storing keep. -/
structure StoreSimulation (related : State → State → Prop) : Prop where
  entries {first second : State} :
    related first second → second.frame.entries = first.frame.entries
  shared {first second : State} :
    related first second → second.frame.shared = first.frame.shared
  outer {first second : State} :
    related first second → second.outer = first.outer
  inDependencies {first second : State} :
    related first second →
      second.session.interpolation.inDependencies = first.session.interpolation.inDependencies
  withEntries {first second : State} (entries : Mapping) :
    related first second → related (first.withEntries entries) (second.withEntries entries)
  withShared {first second : State} (shared : List Text) :
    related first second → related (first.withShared shared) (second.withShared shared)
  withOuter {first second : State} (outer : List Suspended) :
    related first second → related (first.withOuter outer) (second.withOuter outer)
  withFrame {first second : State} (frame : Frame) :
    related first second → related (first.withFrame frame) (second.withFrame frame)
  inContextOf {first second : State} (inDependencies : Bool) :
    related first second →
      related (first.inContextOf inDependencies) (second.inContextOf inDependencies)
  set {first second : State} (name : Text) (value : Value) :
    related first second →
      related (first.withJournal (first.session.journal.set name value))
        (second.withJournal (second.session.journal.set name value))
  grow {first second : State} (name : Text) (items : List Value) :
    related first second →
      related (first.withJournal (first.session.journal.grow name items))
        (second.withJournal (second.session.journal.grow name items))
  report {first second : State} (key : Text) (count : Nat) :
    related first second →
      related (first.withJournal (first.session.journal.report (.globalVariables key count)))
        (second.withJournal (second.session.journal.report (.globalVariables key count)))

namespace StoreSimulation

variable {related : State → State → Prop} {first second : State}

/-- A list grows in related states alike. -/
theorem growShared
    (simulation : StoreSimulation related)
    (areRelated : related first second)
    (key : Text) (items : List Value) :
    related (first.growShared key items) (second.growShared key items) := by
  unfold State.growShared
  rw [simulation.shared areRelated]
  split
  · exact simulation.grow _ _ areRelated
  · exact areRelated

/-- A value is added to a key in related states alike. -/
theorem addEntry
    (simulation : StoreSimulation related)
    (areRelated : related first second)
    (key : Text) (value : Value) :
    related (first.addEntry key value) (second.addEntry key value) := by
  unfold State.addEntry
  rw [simulation.entries areRelated]
  exact simulation.growShared (simulation.withEntries _ areRelated) key [value]

/-- The sharing of a variable ends in related states alike. -/
theorem unshare
    (simulation : StoreSimulation related)
    (areRelated : related first second)
    (name : Text) :
    related (first.unshare name) (second.unshare name) := by
  have unshared (state : State) :
      state.unshare name =
        (state.withShared (state.frame.shared.filter fun key => stripExt key != name)).withOuter
          (state.outer.map fun suspended =>
            { suspended with frame := suspended.frame.unshare name }) :=
    rfl
  rw [unshared first, unshared second, simulation.shared areRelated, simulation.outer areRelated]
  exact simulation.withOuter _ (simulation.withShared _ areRelated)

/-- A variable is written in related states alike. -/
theorem setVariable
    (simulation : StoreSimulation related)
    (areRelated : related first second)
    (name : Text) (value : Value) :
    related (first.setVariable name value) (second.setVariable name value) :=
  simulation.set name value (simulation.unshare areRelated (stripExt name))

/-- Variables are written in related states alike. -/
theorem setVariables
    (simulation : StoreSimulation related)
    (areRelated : related first second)
    (entries : Mapping) :
    related (first.setVariables entries) (second.setVariables entries) := by
  unfold State.setVariables
  induction entries generalizing first second with
  | nil =>
      exact areRelated
  | cons entry entries inductionHypothesis =>
      exact inductionHypothesis (simulation.setVariable areRelated entry.1 entry.2)

/-- A list is shared in related states alike. -/
theorem share
    (simulation : StoreSimulation related)
    (areRelated : related first second)
    (key : Text) :
    related (first.share key) (second.share key) := by
  unfold State.share
  split
  · exact areRelated
  · rw [simulation.shared areRelated]
    exact simulation.withShared _ areRelated

/-- The sharing of a key ends in related states alike. -/
theorem dropShared
    (simulation : StoreSimulation related)
    (areRelated : related first second)
    (key : Text) :
    related (first.dropShared key) (second.dropShared key) := by
  unfold State.dropShared
  rw [simulation.shared areRelated]
  exact simulation.withShared _ areRelated

/-- What is recorded under a key keeps two states related. -/
theorem record
    (simulation : StoreSimulation related)
    (areRelated : related first second)
    (key : Text) (value : Value) :
    related (first.record key value) (second.record key value) := by
  have added := simulation.addEntry areRelated key value
  unfold State.record
  rw [simulation.inDependencies areRelated, simulation.entries areRelated]
  dsimp only
  split
  · have written := simulation.setVariable added key value
    split
    · exact simulation.share written key
    · exact written
  · exact added

/-- What a closure denotes is stored alike. -/
theorem storeClosure
    (simulation : StoreSimulation related)
    (areRelated : related first second)
    (key : Text) (value : Value) :
    related (first.storeClosure key value) (second.storeClosure key value) := by
  unfold State.storeClosure
  rw [simulation.entries areRelated]
  split
  · exact simulation.growShared (simulation.withEntries _ areRelated) key _
  · exact simulation.dropShared (simulation.withEntries _ areRelated) key

/-- What a block denotes is stored alike. -/
theorem storeBlock
    (simulation : StoreSimulation related)
    (areRelated : related first second)
    (key : Text) (nested : Mapping) :
    related (first.storeBlock key nested) (second.storeBlock key nested) := by
  unfold State.storeBlock
  rw [simulation.entries areRelated]
  have stored (combined : Value) :
      related
        ((first.withEntries (first.frame.entries.put key combined)).dropShared key)
        ((second.withEntries (first.frame.entries.put key combined)).dropShared key) :=
    simulation.dropShared (simulation.withEntries _ areRelated) key
  dsimp only
  split
  · next entries _ _ =>
      exact simulation.report key entries.length (simulation.setVariables (stored _) entries)
  · exact stored _

/-- Extra properties become variables in related states alike. -/
theorem setExtVariables
    (simulation : StoreSimulation related)
    (areRelated : related first second)
    (entries : Mapping) :
    related (first.setExtVariables entries) (second.setExtVariables entries) := by
  unfold State.setExtVariables
  generalize Journal.extEntries entries = marked
  induction marked generalizing first second with
  | nil =>
      exact areRelated
  | cons entry marked inductionHypothesis =>
      have written := simulation.setVariable areRelated entry.1 entry.2
      apply inductionHypothesis
      dsimp only
      split
      · exact simulation.share written entry.1
      · exact written

/-- A block without a key is merged alike. -/
theorem mergeAnonymous
    (simulation : StoreSimulation related)
    (areRelated : related first second)
    {nested other : Frame}
    (sameEntries : other.entries = nested.entries)
    (sameShared : other.shared = nested.shared) :
    related (first.mergeAnonymous nested) (second.mergeAnonymous other) := by
  unfold State.mergeAnonymous
  rw [sameEntries, sameShared, simulation.entries areRelated, simulation.shared areRelated]
  exact simulation.setExtVariables
    (simulation.withShared _ (simulation.withEntries _ areRelated)) nested.entries

/-- The bodies around two related ones are gone on with alike. -/
theorem resume
    (simulation : StoreSimulation related)
    (areRelated : related first second)
    (suspended : Suspended) (outer : List Suspended) :
    related (first.resume suspended outer) (second.resume suspended outer) := by
  have enclosing :=
    simulation.withOuter outer (simulation.withFrame suspended.frame areRelated)
  have sameEntries := simulation.entries areRelated
  unfold State.resume
  rw [sameEntries]
  dsimp only
  split
  · exact simulation.storeClosure enclosing _ _
  · exact simulation.storeClosure enclosing _ _
  · next inDependencies _ =>
      have left := simulation.inContextOf inDependencies enclosing
      split
      · exact simulation.mergeAnonymous left sameEntries (simulation.shared areRelated)
      · exact simulation.storeBlock left _ _

/-- Where the text ends, the bodies around are finished alike. -/
theorem unwind
    (simulation : StoreSimulation related)
    (areRelated : related first second) :
    ∃ last otherLast : State,
      related last otherLast ∧
        first.unwind = (last.session, last.frame.entries) ∧
        second.unwind = (otherLast.session, otherLast.frame.entries) := by
  induction depth : first.outer.length generalizing first second with
  | zero =>
      have alone : first.outer = [] := List.length_eq_zero_iff.mp depth
      have otherAlone : second.outer = [] := (simulation.outer areRelated).trans alone
      exact ⟨first, second, areRelated, unwind_of_alone alone, unwind_of_alone otherAlone⟩
  | succ less inductionHypothesis =>
      obtain ⟨suspended, outer, around⟩ := List.exists_cons_of_length_eq_add_one depth
      have otherAround : second.outer = suspended :: outer :=
        (simulation.outer areRelated).trans around
      have shallower : (first.resume suspended outer).outer.length = less := by
        rw [length_outer_resume]
        simpa [around] using depth
      rw [unwind_of_around around, unwind_of_around otherAround]
      exact inductionHypothesis (simulation.resume areRelated suspended outer) shallower

end StoreSimulation

end State

end GradleScript
