import GradleScript.Proofs.Simulation.Replaying

namespace GradleScript

/-!
# Invariants of what is stored

A property of states that speaks of what the bodies have stored and of the journal, and of nothing
else, cannot be broken by the lexical side of reading.  If it is kept where something is stored,
where a body is entered and where one is left, then it holds along every reading, to the end of
the text and while the bodies that are still open there are finished.

An invariant is a simulation that relates every state with itself alone, so nothing has to be said
again about the single turns.
-/

/-- Whether an event tells of a change of the variables. -/
def Event.isWrite : Event → Bool
  | .variableSet _ _ => true
  | .variableGrown _ _ => true
  | _ => false

/-- What a body has stored: its entries, and the keys of the lists that it shares. -/
def Frame.contents (frame : Frame) : Mapping × List Text :=
  (frame.entries, frame.shared)

namespace State

/-- The frames of the bodies being read, innermost first. -/
def frames (state : State) : List Frame :=
  state.frame :: state.outer.map Suspended.frame

/-- A property of states that what is stored decides, and that every act of storing keeps. -/
structure Invariant (holds : State → Prop) : Prop where
  congr {first second : State} :
    holds first →
      second.frames.map Frame.contents = first.frames.map Frame.contents →
        second.session.journal = first.session.journal → holds second
  report {state : State} (event : Event) :
    event.isWrite = false → holds state →
      holds (state.withJournal (state.session.journal.report event))
  record {state : State} (key : Text) (value : Value) :
    holds state → holds (state.record key value)
  storeClosure {state : State} (key : Text) (value : Value) :
    holds state → holds (state.storeClosure key value)
  suspend {state : State} (opening : Opening) (mode : Mode) :
    holds state → holds (state.suspend opening mode)
  resume {state : State} {suspended : Suspended} {outer : List Suspended} :
    state.outer = suspended :: outer → holds state → holds (state.resume suspended outer)

namespace Invariant

variable {holds : State → Prop} {state : State}

/-- An invariant relates every state in which it holds with itself. -/
theorem simulation
    (invariant : Invariant holds) :
    NamingSimulation Eq (fun first second => second = first ∧ holds first) where
  rest := by
    rintro _ _ ⟨rfl, _⟩
    rfl
  statement := by
    rintro _ _ ⟨rfl, _⟩
    rfl
  mode := by
    rintro _ _ ⟨rfl, _⟩
    rfl
  lineStart := by
    rintro _ _ ⟨rfl, _⟩
    rfl
  commentOpen := by
    rintro _ _ ⟨rfl, _⟩
    rfl
  form := by
    rintro _ _ ⟨rfl, _⟩
    rfl
  quoteOpen := by
    rintro _ _ ⟨rfl, _⟩
    rfl
  withRest := by
    rintro _ _ _ _ rfl ⟨rfl, held⟩
    exact ⟨rfl, invariant.congr held rfl rfl⟩
  withStatement := by
    rintro _ _ _ ⟨rfl, held⟩
    exact ⟨rfl, invariant.congr held rfl rfl⟩
  withPrevious := by
    rintro _ _ _ ⟨rfl, held⟩
    exact ⟨rfl, invariant.congr held rfl rfl⟩
  withLineStart := by
    rintro _ _ _ ⟨rfl, held⟩
    exact ⟨rfl, invariant.congr held rfl rfl⟩
  withComment := by
    rintro _ _ _ ⟨rfl, held⟩
    exact ⟨rfl, invariant.congr held rfl rfl⟩
  hearComment := by
    rintro _ _ _ ⟨rfl, held⟩
    exact ⟨rfl, rfl, invariant.congr held rfl rfl⟩
  closeQuote := by
    rintro _ _ ⟨rfl, held⟩
    exact ⟨rfl, invariant.congr held rfl rfl⟩
  hearQuote := by
    rintro _ _ _ ⟨rfl, held⟩
    exact ⟨rfl, invariant.congr held rfl rfl⟩
  record := by
    rintro _ _ key value ⟨rfl, held⟩
    exact ⟨rfl, invariant.record key value held⟩
  storeClosure := by
    rintro _ _ key value ⟨rfl, held⟩
    exact ⟨rfl, invariant.storeClosure key value held⟩
  enterBlock := by
    rintro _ second key ⟨rfl, held⟩ _
    have suspended :=
      invariant.suspend (.block key second.session.interpolation.inDependencies)
        second.frame.mode held
    exact ⟨rfl, invariant.congr suspended rfl rfl⟩
  enterClosure := by
    rintro _ _ key repositories mode ⟨rfl, held⟩ _
    exact ⟨rfl, invariant.suspend _ _ held⟩
  resume := by
    rintro _ _ suspended outer ⟨rfl, held⟩ around
    exact ⟨suspended, outer, around, rfl, invariant.resume around held⟩
  stray := by
    rintro _ _ ⟨rfl, held⟩ alone _
    exact ⟨alone, rfl, invariant.report _ rfl held⟩
  interpolation := by
    rintro _ _ ⟨rfl, _⟩
    rfl
  escapes := by
    rintro _ _ ⟨rfl, _⟩
    rfl
  withInterpolation := by
    rintro _ _ _ ⟨rfl, held⟩
    exact ⟨rfl, invariant.congr held rfl rfl⟩
  resolved := by
    rintro _ _ _ _ ⟨rfl, _⟩
    rfl
  resolve := by
    rintro _ _ name fallback ⟨rfl, held⟩
    refine ⟨rfl, ?_⟩
    unfold Journal.resolve
    split
    · exact invariant.report _ rfl held
    · exact invariant.report _ rfl held

/-- Every construct keeps an invariant. -/
theorem steps
    (invariant : Invariant holds)
    {closures : Closures} {next : State}
    (steps : Steps closures state next)
    (held : holds state) :
    holds next :=
  (invariant.simulation.steps textSimulation_eq ⟨rfl, held⟩ (keepsAlike_of_eq closures rfl)
    steps steps).2

/-- An invariant holds at every place that is reached. -/
theorem reaches
    (invariant : Invariant holds)
    {closures : Closures} {later : State}
    (reaches : Reaches closures state later)
    (held : holds state) :
    holds later := by
  induction reaches with
  | refl =>
      exact held
  | tail _ steps inductionHypothesis =>
      exact invariant.steps steps inductionHypothesis

/-- An invariant holds after the end of a statement. -/
theorem flush
    (invariant : Invariant holds)
    (held : holds state) :
    holds state.flush :=
  (invariant.simulation.flush ⟨rfl, held⟩).2

/-- An invariant holds where the end of the text has ended a name. -/
theorem settleEnd
    (invariant : Invariant holds)
    (held : holds state) :
    holds state.settleEnd :=
  (invariant.simulation.settleEnd ⟨rfl, held⟩).2

/-- Where the text ends, an invariant holds until all bodies are finished. -/
theorem unwind
    (invariant : Invariant holds)
    (held : holds state) :
    ∃ last : State,
      holds last ∧ last.outer = [] ∧ state.unwind = (last.session, last.frame.entries) := by
  induction depth : state.outer.length generalizing state with
  | zero =>
      have alone : state.outer = [] := List.length_eq_zero_iff.mp depth
      exact ⟨state, held, alone, unwind_of_alone alone⟩
  | succ less inductionHypothesis =>
      obtain ⟨suspended, outer, around⟩ := List.exists_cons_of_length_eq_add_one depth
      have shallower : (state.resume suspended outer).outer.length = less := by
        rw [length_outer_resume]
        simpa [around] using depth
      rw [unwind_of_around around]
      exact inductionHypothesis (invariant.resume around held) shallower

/-- What a whole script denotes, and the journal it leaves, are those of a state in which the
invariants hold and no nested body is being read. -/
theorem run
    (invariant : Invariant holds)
    (closures : Closures)
    (held : holds state)
    (whole : state.wholeScript = true) :
    ∃ last : State,
      holds last ∧ last.outer = [] ∧ state.run closures = (last.session, last.frame.entries) := by
  obtain ⟨atEnd, reaches, noneLeft⟩ := exists_reaches_end closures whole
  rw [run_eq_of_reaches_end reaches noneLeft]
  exact invariant.unwind (invariant.flush (invariant.settleEnd (invariant.reaches reaches held)))

end Invariant

end State

end GradleScript
