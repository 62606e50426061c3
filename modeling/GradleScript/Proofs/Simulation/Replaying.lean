import GradleScript.Proofs.Simulation.Runs

namespace GradleScript

/-!
# Reading over another journal

What a reading writes and reports does not depend on the variables it begins with, as long as it
looks none of them up.  So the reading that begins with some journal is the reading that begins
with an empty one, with its events replayed over that journal.
-/

namespace Event

/-- The variables after an event. -/
def replay (event : Event) (table : Variables) : Variables :=
  match event with
  | .variableSet name value =>
      table.set name value
  | .variableGrown name items =>
      table.grow name items
  | _ =>
      table

/-- Whether an event is the look-up of a name. -/
def isLookup : Event → Bool
  | .nameResolved _ => true
  | .nameUnresolved _ => true
  | _ => false

end Event

namespace Journal

/-- The journal in which the events of a first journal come after those of a second one. -/
def onto (journal base : Journal) : Journal where
  table := journal.events.foldr Event.replay base.table
  events := journal.events ++ base.events

/-- A write is replayed as an event after those of the other journal. -/
theorem set_onto
    (journal base : Journal) (name : Text) (value : Value) :
    (journal.onto base).set name value = (journal.set name value).onto base := by
  unfold set
  dsimp only
  split <;> rfl

/-- Whether a journal tells of no look-up. -/
def NoLookups (journal : Journal) : Prop :=
  ∀ event ∈ journal.events, event.isLookup = false

/-- A write looks nothing up. -/
theorem NoLookups.set
    {journal : Journal}
    (noLookups : journal.NoLookups)
    (name : Text) (value : Value) :
    (journal.set name value).NoLookups := by
  unfold Journal.set
  dsimp only
  split
  · exact noLookups
  · exact List.forall_mem_cons.mpr ⟨rfl, noLookups⟩

end Journal

namespace State

/-- The state with its events replayed over another journal, in a scan that is restricted or not. -/
def onto (state : State) (base : Journal) (restricted : Bool) : State :=
  { state with
    session := {
      state.session with
      interpolation := { state.session.interpolation with restricted := restricted }
      journal := state.session.journal.onto base } }

/-- Whether a second state is a first one, which has looked nothing up, over another journal. -/
structure IsOver (base : Journal) (restricted : Bool) (first second : State) : Prop where
  eq : second = first.onto base restricted
  noLookups : first.session.journal.NoLookups

/-- Storing keeps a state the other one over the same journal. -/
theorem storeSimulation_isOver
    (base : Journal) (restricted : Bool) :
    StoreSimulation (IsOver base restricted) where
  entries := by
    rintro _ _ ⟨rfl, _⟩
    rfl
  shared := by
    rintro _ _ ⟨rfl, _⟩
    rfl
  outer := by
    rintro _ _ ⟨rfl, _⟩
    rfl
  inDependencies := by
    rintro _ _ ⟨rfl, _⟩
    rfl
  withEntries := by
    rintro _ _ _ ⟨rfl, noLookups⟩
    exact ⟨rfl, noLookups⟩
  withShared := by
    rintro _ _ _ ⟨rfl, noLookups⟩
    exact ⟨rfl, noLookups⟩
  withOuter := by
    rintro _ _ _ ⟨rfl, noLookups⟩
    exact ⟨rfl, noLookups⟩
  withFrame := by
    rintro _ _ _ ⟨rfl, noLookups⟩
    exact ⟨rfl, noLookups⟩
  inContextOf := by
    rintro _ _ _ ⟨rfl, noLookups⟩
    exact ⟨rfl, noLookups⟩
  set := by
    rintro first _ name value ⟨rfl, noLookups⟩
    refine ⟨?_, noLookups.set name value⟩
    exact congrArg (fun journal => (first.onto base restricted).withJournal journal)
      (first.session.journal.set_onto base name value)
  grow := by
    rintro _ _ name items ⟨rfl, noLookups⟩
    exact ⟨rfl, List.forall_mem_cons.mpr ⟨rfl, noLookups⟩⟩
  report := by
    rintro _ _ key count ⟨rfl, noLookups⟩
    exact ⟨rfl, List.forall_mem_cons.mpr ⟨rfl, noLookups⟩⟩

/-- Reading keeps a state the other one over the same journal, as long as no name is read. -/
theorem simulation_isOver
    (base : Journal) (restricted : Bool) :
    Simulation Eq (IsOver base restricted) where
  rest := by
    rintro _ _ ⟨rfl, _⟩
    rfl
  statement := by
    rintro _ _ ⟨rfl, _⟩
    rfl
  mode := by
    rintro _ _ ⟨rfl, _⟩
    rfl
  lineStart := by
    rintro _ _ ⟨rfl, _⟩
    rfl
  commentOpen := by
    rintro _ _ ⟨rfl, _⟩
    rfl
  form := by
    rintro _ _ ⟨rfl, _⟩
    rfl
  quoteOpen := by
    rintro _ _ ⟨rfl, _⟩
    rfl
  withRest := by
    rintro _ _ _ _ rfl ⟨rfl, noLookups⟩
    exact ⟨rfl, noLookups⟩
  withStatement := by
    rintro _ _ _ ⟨rfl, noLookups⟩
    exact ⟨rfl, noLookups⟩
  withPrevious := by
    rintro _ _ _ ⟨rfl, noLookups⟩
    exact ⟨rfl, noLookups⟩
  withLineStart := by
    rintro _ _ _ ⟨rfl, noLookups⟩
    exact ⟨rfl, noLookups⟩
  withComment := by
    rintro _ _ _ ⟨rfl, noLookups⟩
    exact ⟨rfl, noLookups⟩
  hearComment := by
    rintro _ _ _ ⟨rfl, noLookups⟩
    exact ⟨rfl, rfl, noLookups⟩
  closeQuote := by
    rintro _ _ ⟨rfl, noLookups⟩
    exact ⟨rfl, noLookups⟩
  hearQuote := by
    rintro _ _ _ ⟨rfl, noLookups⟩
    exact ⟨rfl, noLookups⟩
  record := fun key value isOver => (storeSimulation_isOver base restricted).record isOver key value
  storeClosure := fun key value isOver =>
    (storeSimulation_isOver base restricted).storeClosure isOver key value
  enterBlock := by
    rintro _ _ _ ⟨rfl, noLookups⟩ _
    exact ⟨rfl, noLookups⟩
  enterClosure := by
    rintro _ _ _ _ _ ⟨rfl, noLookups⟩ _
    exact ⟨rfl, noLookups⟩
  resume := by
    intro first second suspended outer isOver around
    refine ⟨suspended, outer, ?_, (storeSimulation_isOver base restricted).resume isOver _ _⟩
    exact ((storeSimulation_isOver base restricted).outer isOver).trans around
  stray := by
    rintro _ _ ⟨rfl, noLookups⟩ alone _
    exact ⟨alone, rfl, List.forall_mem_cons.mpr ⟨rfl, noLookups⟩⟩

end State

end GradleScript
