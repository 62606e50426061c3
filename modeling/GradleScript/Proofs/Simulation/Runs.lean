import GradleScript.Proofs.Simulation.Naming

namespace GradleScript

/-!
# Runs that a simulation relates

What a simulation says of one construct it says of a whole run: related states are read to related
states, up to the end of the text.  A simulation that does not follow names says so of runs that
read none.
-/

namespace State

/-! ## Runs and their ends -/

/-- Whether no name is being read and the next character begins none. -/
structure Nameless (state : State) : Prop where
  noName : state.session.interpolation.form = none
  dollar :
    ∀ ch rest, state.session.rest = ch :: rest → state.DollarIsPlain ch

/-- Where no name is read, the next character ends none before it is taken. -/
theorem Nameless.advance_eq
    {state : State} {ch : Char} {rest : Text}
    (nameless : state.Nameless)
    (closures : Closures) :
    state.advance closures ch rest = state.take closures ch rest (state.turn ch rest) := by
  unfold advance
  rw [settle_of_noName nameless.noName]

/-- A step reads the construct at the next character. -/
theorem steps_iff
    {closures : Closures} {state next : State} :
    Steps closures state next ↔
      ∃ ch rest,
        state.session.rest = ch :: rest ∧ state.advance closures ch rest = .running next := by
  unfold Steps step
  constructor
  · intro steps
    split at steps
    · cases steps
    · next ch rest text =>
        exact ⟨ch, rest, text, steps⟩
  · rintro ⟨ch, rest, text, advanced⟩
    rw [text]
    exact advanced

/-- The reading of a text goes one way. -/
theorem steps_rightUnique
    (closures : Closures) :
    Relator.RightUnique (Steps closures) := by
  intro state next other steps otherSteps
  cases steps.symm.trans otherSteps
  rfl

/-- A step is made at a character of the text. -/
theorem Steps.rest_ne_nil
    {closures : Closures} {state next : State}
    (steps : Steps closures state next) :
    state.session.rest ≠ [] := by
  obtain ⟨ch, rest, text, _⟩ := steps_iff.mp steps
  rw [text]
  exact List.cons_ne_nil ch rest

/-- A step keeps what is read a whole script or a body. -/
theorem Steps.wholeScript_eq
    {closures : Closures} {state next : State}
    (steps : Steps closures state next) :
    next.wholeScript = state.wholeScript := by
  obtain ⟨ch, rest, _, movement⟩ := steps.movement
  cases movement with
  | within surroundings =>
      exact congrArg (fun body => body.wholeScript) surroundings
  | into opening entering =>
      obtain ⟨waiting, _, _, enteredShape⟩ := entering.around
      exact congrArg (fun body => body.wholeScript) enteredShape
  | @outOf suspended outer closing around =>
      have resumed :=
        congrArg (fun body => body.wholeScript)
          (lexical_resume (state.closedAt ch rest) suspended outer)
      exact resumed.trans (wholeScript_closedAt state ch rest)

/-- A run keeps what is read a whole script or a body. -/
theorem Reaches.wholeScript_eq
    {closures : Closures} {state later : State}
    (reaches : Reaches closures state later) :
    later.wholeScript = state.wholeScript := by
  induction reaches with
  | refl =>
      rfl
  | tail _ steps inductionHypothesis =>
      exact steps.wholeScript_eq.trans inductionHypothesis

/-- A whole script goes on while something is left of its text. -/
theorem exists_steps
    (closures : Closures) {state : State}
    (whole : state.wholeScript = true)
    (left : state.session.rest ≠ []) :
    ∃ next, Steps closures state next := by
  obtain ⟨ch, rest, text⟩ := List.exists_cons_of_ne_nil left
  have movement := movement_advance closures state ch rest
  cases progress : state.advance closures ch rest with
  | running next =>
      exact ⟨next, steps_iff.mpr ⟨ch, rest, text, progress⟩⟩
  | closed session entries =>
      rw [progress] at movement
      cases movement with
      | finished closing alone =>
          have notWhole := closing.inBlock.resolve_left
            (not_not_intro ((outer_closedAt_eq_nil_iff state ch rest).mp alone))
          cases whole.symm.trans notWhole

/-- What is left of a whole script can be read to the end of the text. -/
theorem exists_reaches_end
    (closures : Closures) {state : State}
    (whole : state.wholeScript = true) :
    ∃ last, Reaches closures state last ∧ last.session.rest = [] := by
  induction left : state.session.rest.length using Nat.strongRecOn generalizing state with
  | ind length inductionHypothesis =>
    by_cases atEnd : state.session.rest = []
    · exact ⟨state, .refl, atEnd⟩
    · obtain ⟨next, steps⟩ := exists_steps closures whole atEnd
      obtain ⟨last, reaches, lastAtEnd⟩ :=
        inductionHypothesis _ (left ▸ steps.length_rest_lt) (steps.wholeScript_eq.trans whole) rfl
      exact ⟨last, Relation.ReflTransGen.head steps reaches, lastAtEnd⟩

/-- A run that comes to the end of the text ends there. -/
theorem run_eq_of_reaches_end
    {closures : Closures} {state last : State}
    (reaches : Reaches closures state last)
    (atEnd : last.session.rest = []) :
    state.run closures = last.finish := by
  have closed : last.step closures = .closed last.finish.1 last.finish.2 := by
    unfold step
    rw [atEnd]
  exact reaches.run_eq.trans (run_eq_of_closed closed)

/-- The state after a number of constructs, or where the reading ends before. -/
def readOn (closures : Closures) : Nat → State → State
  | 0, state =>
      state
  | count + 1, state =>
      match state.step closures with
      | .running next => readOn closures count next
      | .closed _ _ => state

/-- So many constructs of a text lead to a state that is reached. -/
theorem reaches_readOn
    (closures : Closures) (count : Nat) (state : State) :
    Reaches closures state (readOn closures count state) := by
  induction count generalizing state with
  | zero =>
      exact .refl
  | succ count inductionHypothesis =>
      unfold readOn
      split
      · next next steps =>
          exact Relation.ReflTransGen.head steps (inductionHypothesis next)
      · exact .refl

/-- Whether something holds at every place up to the end of the reading, which so many constructs
reach. -/
def alwaysWithin (holds : State → Bool) (closures : Closures) : Nat → State → Bool
  | 0, _ =>
      false
  | count + 1, state =>
      holds state &&
        match state.step closures with
        | .running next => alwaysWithin holds closures count next
        | .closed _ _ => true

/-- What holds at every place up to the end of the reading holds wherever it comes. -/
theorem holds_of_alwaysWithin
    {holds : State → Bool} {closures : Closures} {count : Nat} {state later : State}
    (always : alwaysWithin holds closures count state = true)
    (reaches : Reaches closures state later) :
    holds later = true := by
  induction count generalizing state with
  | zero =>
      cases always
  | succ count inductionHypothesis =>
      rw [alwaysWithin, Bool.and_eq_true] at always
      obtain ⟨here, onward⟩ := always
      rcases Relation.ReflTransGen.cases_head reaches with rfl | ⟨next, steps, reachesLater⟩
      · exact here
      · have stepShape : state.step closures = .running next := steps
        rw [stepShape] at onward
        exact inductionHypothesis onward reachesLater

/-- Where no name is being read, the end of the text ends the statement and the open bodies. -/
theorem finish_of_noName
    {state : State}
    (noName : state.session.interpolation.form = none) :
    state.finish = state.flush.unwind := by
  unfold finish settleEnd
  rw [noName]

/-! ## Related runs -/

/-- Whether everything that is kept of the next construct with its text is the same for two
states. -/
def KeepsAlike
    (follows : Text → Text → Prop)
    (closures : Closures)
    (first second : State) : Prop :=
  ∀ ch rest otherRest,
    first.session.rest = ch :: rest → second.session.rest = ch :: otherRest →
      GradleScript.KeepsAlike follows closures (first.settle ch).frame (ch :: rest)
        (ch :: otherRest) ((first.settle ch).turn ch rest)

/-- States with the same text left keep the same of each construct. -/
theorem keepsAlike_of_eq
    (closures : Closures) {first second : State}
    (sameRest : first.session.rest = second.session.rest) :
    KeepsAlike Eq closures first second := by
  intro ch rest otherRest text otherText
  obtain ⟨_, rfl⟩ := List.cons.inj (text.symm.trans (sameRest.trans otherText))
  exact GradleScript.keepsAlike_eq closures _ _ _

/-- Whether two states read the next character as the same thing, and what it begins alike. -/
structure ReadsAlike
    (follows : Text → Text → Prop)
    (closures : Closures)
    (first second : State)
    (ch : Char) (rest otherRest : Text) : Prop where
  text : first.session.rest = ch :: rest
  otherText : second.session.rest = ch :: otherRest
  sameTurn : (second.settle ch).turn ch otherRest = (first.settle ch).turn ch rest
  reads :
    GradleScript.ReadsAlike follows closures (first.settle ch).frame (ch :: rest) (ch :: otherRest)
      ((first.settle ch).turn ch rest)

namespace Simulation

variable {follows : Text → Text → Prop} {related : State → State → Prop} {first second : State}

/-- Where no name is read, related states that read alike step to related states. -/
theorem steps_of_readsAlike
    (simulation : Simulation follows related)
    (areRelated : related first second)
    (nameless : first.Nameless)
    (otherNameless : second.Nameless)
    {closures : Closures} {next other : State} {ch : Char} {rest otherRest : Text}
    (alike : ReadsAlike follows closures first second ch rest otherRest)
    (steps : Steps closures first next)
    (otherSteps : Steps closures second other) :
    related next other := by
  obtain ⟨text, otherText, sameTurn, reads⟩ := alike
  obtain ⟨_, _, shape, advanced⟩ := steps_iff.mp steps
  obtain ⟨_, _, otherShape, otherAdvanced⟩ := steps_iff.mp otherSteps
  obtain ⟨rfl, rfl⟩ := List.cons.inj (text.symm.trans shape)
  obtain ⟨rfl, rfl⟩ := List.cons.inj (otherText.symm.trans otherShape)
  rw [settle_of_noName nameless.noName, settle_of_noName otherNameless.noName] at sameTurn
  rw [settle_of_noName nameless.noName] at reads
  rw [nameless.advance_eq] at advanced
  rw [otherNameless.advance_eq, sameTurn] at otherAdvanced
  have noneBegins := beginsName_of_dollarIsPlain (nameless.dollar _ _ text)
  exact simulation.take areRelated (isOfName_turn nameless.noName noneBegins rest) reads advanced
    otherAdvanced

/-- Where no name is read, related states with texts that are scanned alike read alike. -/
theorem exists_readsAlike
    (simulation : Simulation follows related)
    (texts : TextSimulation follows)
    (areRelated : related first second)
    (nameless : first.Nameless)
    (otherNameless : second.Nameless)
    {closures : Closures} {next other : State}
    (keeps : KeepsAlike follows closures first second)
    (steps : Steps closures first next)
    (otherSteps : Steps closures second other) :
    ∃ ch rest otherRest, ReadsAlike follows closures first second ch rest otherRest := by
  obtain ⟨ch, rest, text, _⟩ := steps_iff.mp steps
  obtain ⟨otherCh, otherRest, otherText, _⟩ := steps_iff.mp otherSteps
  have place := simulation.rest areRelated
  rw [text, otherText] at place
  obtain ⟨_, shape, _⟩ := texts.cons place
  obtain ⟨rfl, _⟩ := List.cons.inj shape
  have noneBegins := beginsName_of_dollarIsPlain (nameless.dollar _ rest text)
  have noneBeginsThere := beginsName_of_dollarIsPlain (otherNameless.dollar _ otherRest otherText)
  have sameTurn :=
    simulation.turn_eq areRelated (noneBeginsThere.trans noneBegins.symm) (texts.commentAt place)
  refine ⟨otherCh, rest, otherRest, text, otherText, ?_,
    readsAlike_turn texts place (keeps _ _ _ text otherText)⟩
  rw [settle_of_noName nameless.noName, settle_of_noName otherNameless.noName]
  exact sameTurn

/-- Where no name is read, related states with texts that are scanned alike step to related
states. -/
theorem steps
    (simulation : Simulation follows related)
    (texts : TextSimulation follows)
    (areRelated : related first second)
    (nameless : first.Nameless)
    (otherNameless : second.Nameless)
    {closures : Closures} {next other : State}
    (keeps : KeepsAlike follows closures first second)
    (steps : Steps closures first next)
    (otherSteps : Steps closures second other) :
    related next other := by
  obtain ⟨_, _, _, alike⟩ :=
    simulation.exists_readsAlike texts areRelated nameless otherNameless keeps steps otherSteps
  exact simulation.steps_of_readsAlike areRelated nameless otherNameless alike steps otherSteps

/-- Where no name is read along a run, and everything that is kept is the same, what is reached from
related states is related, as long as the second run goes on. -/
theorem reaches_of_steps
    (simulation : Simulation follows related)
    (texts : TextSimulation follows)
    (areRelated : related first second)
    {closures : Closures} {later : State}
    (nameless :
      ∀ state other, Reaches closures first state → Reaches closures second other →
        related state other → state.Nameless ∧ other.Nameless)
    (goesOn :
      ∀ state next other, Reaches closures first state → Steps closures state next →
        Reaches closures second other → related state other →
          KeepsAlike follows closures state other ∧ ∃ otherNext, Steps closures other otherNext)
    (reaches : Reaches closures first later) :
    ∃ other, Reaches closures second other ∧ related later other := by
  induction reaches with
  | refl =>
      exact ⟨second, .refl, areRelated⟩
  | tail reached steps inductionHypothesis =>
      obtain ⟨other, otherReached, stillRelated⟩ := inductionHypothesis
      obtain ⟨isNameless, otherIsNameless⟩ := nameless _ other reached otherReached stillRelated
      obtain ⟨keeps, next, otherSteps⟩ := goesOn _ _ other reached steps otherReached stillRelated
      exact
        ⟨next, otherReached.tail otherSteps,
          simulation.steps texts stillRelated isNameless otherIsNameless keeps steps otherSteps⟩

/-- Where no name is read along a run, what is reached from related states of a script over one
text is related. -/
theorem reaches
    (simulation : Simulation Eq related)
    (areRelated : related first second)
    (whole : second.wholeScript = true)
    {closures : Closures} {later : State}
    (nameless :
      ∀ state other, Reaches closures first state → related state other →
        state.Nameless ∧ other.Nameless)
    (reaches : Reaches closures first later) :
    ∃ other, Reaches closures second other ∧ related later other ∧ other.wholeScript = true := by
  have isNameless (state other : State)
      (reached : Reaches closures first state)
      (_ : Reaches closures second other)
      (stillRelated : related state other) :
      state.Nameless ∧ other.Nameless :=
    nameless state other reached stillRelated
  have goesOn (state next other : State)
      (_ : Reaches closures first state)
      (steps : Steps closures state next)
      (otherReached : Reaches closures second other)
      (stillRelated : related state other) :
      KeepsAlike Eq closures state other ∧ ∃ otherNext, Steps closures other otherNext := by
    have sameRest := simulation.rest stillRelated
    exact
      ⟨keepsAlike_of_eq closures sameRest,
        exists_steps closures (otherReached.wholeScript_eq.trans whole)
          (sameRest ▸ steps.rest_ne_nil)⟩
  obtain ⟨other, otherReached, stillRelated⟩ :=
    simulation.reaches_of_steps textSimulation_eq areRelated isNameless goesOn reaches
  exact ⟨other, otherReached, stillRelated, otherReached.wholeScript_eq.trans whole⟩

end Simulation

namespace NamingSimulation

variable {follows : Text → Text → Prop} {related : State → State → Prop} {first second : State}

/-- Related states that read alike step to related states. -/
theorem steps_of_readsAlike
    (simulation : NamingSimulation follows related)
    (areRelated : related first second)
    {closures : Closures} {next other : State} {ch : Char} {rest otherRest : Text}
    (alike : ReadsAlike follows closures first second ch rest otherRest)
    (steps : Steps closures first next)
    (otherSteps : Steps closures second other) :
    related next other := by
  obtain ⟨text, otherText, sameTurn, reads⟩ := alike
  obtain ⟨_, _, shape, advanced⟩ := steps_iff.mp steps
  obtain ⟨_, _, otherShape, otherAdvanced⟩ := steps_iff.mp otherSteps
  obtain ⟨rfl, rfl⟩ := List.cons.inj (text.symm.trans shape)
  obtain ⟨rfl, rfl⟩ := List.cons.inj (otherText.symm.trans otherShape)
  unfold advance at advanced otherAdvanced
  dsimp only at advanced otherAdvanced
  rw [sameTurn] at otherAdvanced
  exact simulation.take (simulation.settle areRelated ch) reads advanced otherAdvanced

/-- Related states read the next character as the same thing, if it begins a comment in both texts
or in neither. -/
theorem turn_settle_eq
    (simulation : NamingSimulation follows related)
    (areRelated : related first second)
    {ch : Char} {rest otherRest : Text}
    (sameComment : commentAt? (ch :: otherRest) = commentAt? (ch :: rest)) :
    (second.settle ch).turn ch otherRest = (first.settle ch).turn ch rest := by
  have settled := simulation.settle areRelated ch
  exact simulation.turn_eq settled (simulation.beginsName_eq settled ch) sameComment

/-- Related states with texts that are scanned alike step to related states. -/
theorem steps
    (simulation : NamingSimulation follows related)
    (texts : TextSimulation follows)
    (areRelated : related first second)
    {closures : Closures} {next other : State}
    (keeps : KeepsAlike follows closures first second)
    (steps : Steps closures first next)
    (otherSteps : Steps closures second other) :
    related next other := by
  obtain ⟨ch, rest, text, _⟩ := steps_iff.mp steps
  obtain ⟨otherCh, otherRest, otherText, _⟩ := steps_iff.mp otherSteps
  have place := simulation.rest areRelated
  rw [text, otherText] at place
  obtain ⟨_, shape, _⟩ := texts.cons place
  obtain ⟨rfl, _⟩ := List.cons.inj shape
  exact simulation.steps_of_readsAlike areRelated
    ⟨text, otherText, simulation.turn_settle_eq areRelated (texts.commentAt place),
      readsAlike_turn texts place (keeps _ _ _ text otherText)⟩ steps otherSteps

/-- Where everything that is kept is the same along a run, what is reached from related states of a
whole script is related. -/
theorem reaches
    (simulation : NamingSimulation follows related)
    (texts : TextSimulation follows)
    (areRelated : related first second)
    (whole : second.wholeScript = true)
    {closures : Closures} {later : State}
    (keeps :
      ∀ state other, Reaches closures first state → related state other →
        KeepsAlike follows closures state other)
    (reaches : Reaches closures first later) :
    ∃ other, Reaches closures second other ∧ related later other ∧ other.wholeScript = true := by
  induction reaches with
  | refl =>
      exact ⟨second, .refl, areRelated, whole⟩
  | tail reached steps inductionHypothesis =>
      obtain ⟨other, otherReached, stillRelated, otherWhole⟩ := inductionHypothesis
      obtain ⟨ch, rest, text, _⟩ := steps_iff.mp steps
      obtain ⟨otherRest, otherText, _⟩ :=
        texts.cons (text ▸ simulation.rest stillRelated)
      obtain ⟨next, otherSteps⟩ :=
        exists_steps closures otherWhole (otherText ▸ List.cons_ne_nil ch otherRest)
      exact
        ⟨next, otherReached.tail otherSteps,
          simulation.steps texts stillRelated (keeps _ other reached stillRelated) steps otherSteps,
          otherSteps.wholeScript_eq.trans otherWhole⟩

/-- Two related states of a script over one text are read to states that have stored alike, and in
which all bodies are finished. -/
theorem run
    (simulation : NamingSimulation Eq related)
    {stored : State → State → Prop}
    (storing : StoreSimulation stored)
    (areStored : ∀ {first second : State}, related first second → stored first second)
    (areRelated : related first second)
    (whole : first.wholeScript = true)
    (otherWhole : second.wholeScript = true)
    (closures : Closures) :
    ∃ last otherLast : State,
      stored last otherLast ∧
        first.run closures = (last.session, last.frame.entries) ∧
        second.run closures = (otherLast.session, otherLast.frame.entries) := by
  induction left : first.session.rest.length using Nat.strongRecOn
    generalizing first second with
  | ind length inductionHypothesis =>
    have sameRest := simulation.rest areRelated
    by_cases atEnd : first.session.rest = []
    · obtain ⟨last, otherLast, lastStored, finish, otherFinish⟩ :=
        storing.unwind (areStored (simulation.flush (simulation.settleEnd areRelated)))
      rw [run_eq_of_reaches_end .refl atEnd, run_eq_of_reaches_end .refl (sameRest ▸ atEnd)]
      exact ⟨last, otherLast, lastStored, finish, otherFinish⟩
    · obtain ⟨next, steps⟩ := exists_steps closures whole atEnd
      obtain ⟨other, otherSteps⟩ := exists_steps closures otherWhole (sameRest ▸ atEnd)
      have nextRelated :=
        simulation.steps textSimulation_eq areRelated (keepsAlike_of_eq closures sameRest) steps
          otherSteps
      rw [steps.run_eq, otherSteps.run_eq]
      exact inductionHypothesis _ (left ▸ steps.length_rest_lt) nextRelated
        (steps.wholeScript_eq.trans whole) (otherSteps.wholeScript_eq.trans otherWhole) rfl

end NamingSimulation

end State

end GradleScript
