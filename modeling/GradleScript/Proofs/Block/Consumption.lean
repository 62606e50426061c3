import GradleScript.Proofs.Block.Bodies

namespace GradleScript

/-!
# Every iteration reads on

The reading of a body is a loop: an iteration reads one construct of the body, a nested body as a
whole, or the brace that ends the body.  An iteration that goes on leaves the cursor further on than
it was and inside the text, so the loop ends on every text, and a whole script is read to its end.
-/

/-- What an iteration of the reading of a body leads to. -/
inductive Outcome where
  /-- The body goes on. -/
  | goesOn (next : State)
  /-- The body is finished. -/
  | returns (finished : State)

namespace State

/-- One iteration of the reading of a body, with everything that is nested in it. -/
inductive Iterates (closures : Closures) (state : State) : Outcome → Prop where
  | construct
      {next : State}
      (steps : Steps closures state next)
      (sameDepth : next.outer.length = state.outer.length) :
      Iterates closures state (.goesOn next)
  | nested
      {opened inner : State}
      {suspended : Suspended} {outer : List Suspended}
      (steps : Steps closures state opened)
      (deeper : opened.outer.length = state.outer.length + 1)
      (body : BodyRead closures opened inner)
      (around : inner.outer = suspended :: outer) :
      Iterates closures state (.goesOn (inner.resume suspended outer))
  | brace
      {ch : Char} {rest : Text}
      (text : state.session.rest = ch :: rest)
      (closing : Closing state ch rest) :
      Iterates closures state (.returns (state.closedAt ch rest))

/-- While something is left of the text there is a further iteration. -/
theorem exists_iterates
    (closures : Closures) {state : State}
    (left : state.session.rest ≠ []) :
    ∃ outcome, Iterates closures state outcome := by
  obtain ⟨finished, reading⟩ := exists_bodyRead closures state
  cases reading with
  | textEnd atEnd =>
      exact (left atEnd).elim
  | brace text closing =>
      exact ⟨_, .brace text closing⟩
  | construct steps sameDepth _ =>
      exact ⟨_, .construct steps sameDepth⟩
  | nested steps deeper body around _ =>
      exact ⟨_, .nested steps deeper body around⟩

/-- An iteration that goes on stays in its body and leaves a shorter end part of the text. -/
theorem Iterates.goesOn
    {closures : Closures} {state next : State}
    (iterates : Iterates closures state (.goesOn next)) :
    next.surroundings = state.surroundings ∧
      next.session.rest <:+ state.session.rest ∧
      next.session.rest.length < state.session.rest.length := by
  cases iterates with
  | construct steps sameDepth =>
      exact ⟨steps.surroundings_eq sameDepth, steps.rest_suffix, steps.length_rest_lt⟩
  | nested steps deeper body around =>
      obtain ⟨opening, entering⟩ := steps.entering deeper
      have bodyLength := body.rest_suffix.length_le
      rw [rest_resume]
      exact
        ⟨(surroundings_resume entering body.surroundings_eq around).1,
          body.rest_suffix.trans steps.rest_suffix,
          Nat.lt_of_le_of_lt bodyLength steps.length_rest_lt⟩

/-- An iteration that returns stays in its body and leaves an end part of the text. -/
theorem Iterates.returns
    {closures : Closures} {state finished : State}
    (iterates : Iterates closures state (.returns finished)) :
    finished.surroundings = state.surroundings ∧
      finished.session.rest <:+ state.session.rest := by
  cases iterates with
  | brace text closing =>
      have reading : BodyRead closures state _ := .brace text closing
      exact ⟨reading.surroundings_eq, reading.rest_suffix⟩

end State

/-- A session at some place of a text. -/
structure Session.StandsIn (text : Text) (session : Session) : Prop where
  size : session.size = text.length
  rest : session.rest <:+ text

namespace Session

/-- A session never stands behind the end of its text. -/
theorem StandsIn.position_le
    {text : Text} {session : Session}
    (stands : session.StandsIn text) :
    session.position ≤ text.length := by
  have size := stands.size
  unfold position
  omega

/-- The less of a text is left, the further on the session stands. -/
theorem StandsIn.position_lt
    {text : Text} {session later : Session}
    (stands : session.StandsIn text)
    (laterStands : later.StandsIn text)
    (shorter : later.rest.length < session.rest.length) :
    session.position < later.position := by
  have size := stands.size
  have laterSize := laterStands.size
  have bound := stands.rest.length_le
  unfold position
  omega

/-- A session that has read no less of a text stands no further back. -/
theorem StandsIn.position_mono
    {text : Text} {session later : Session}
    (stands : session.StandsIn text)
    (laterStands : later.StandsIn text)
    (noLonger : later.rest.length ≤ session.rest.length) :
    session.position ≤ later.position := by
  have size := stands.size
  have laterSize := laterStands.size
  unfold position
  omega

/-- A session is at the end of its text exactly when nothing is left. -/
theorem StandsIn.position_eq_length_iff
    {text : Text} {session : Session}
    (stands : session.StandsIn text) :
    session.position = text.length ↔ session.rest = [] := by
  have size := stands.size
  have bound := stands.rest.length_le
  rw [← List.length_eq_zero_iff]
  unfold position
  omega

end Session

namespace State

/-- A step goes on in the text that it began in. -/
theorem Steps.standsIn
    {closures : Closures} {state next : State} {text : Text}
    (steps : Steps closures state next)
    (stands : state.session.StandsIn text) :
    next.session.StandsIn text := by
  refine ⟨?_, steps.rest_suffix.trans stands.rest⟩
  obtain ⟨ch, rest, _, movement⟩ := steps.movement
  cases movement with
  | within surroundings =>
      have sizes := congrArg (fun body => body.session.size) surroundings
      exact sizes.trans stands.size
  | into opening entering =>
      obtain ⟨waiting, _, _, enteredShape⟩ := entering.around
      have sizes := congrArg (fun body => body.session.size) enteredShape
      exact sizes.trans stands.size
  | @outOf suspended outer closing around =>
      have resumed :=
        congrArg (fun body => body.session.size)
          (lexical_resume (state.closedAt ch rest) suspended outer)
      have sizes :=
        congrArg (fun body => body.session.size) (surroundings_closedAt state ch rest)
      refine (resumed.trans ?_).trans (sizes.trans stands.size)
      cases suspended.opening <;> rfl

/-- A run goes on in the text that it began in. -/
theorem Reaches.standsIn
    {closures : Closures} {state later : State} {text : Text}
    (reaches : Reaches closures state later)
    (stands : state.session.StandsIn text) :
    later.session.StandsIn text := by
  induction reaches with
  | refl =>
      exact stands
  | tail _ steps inductionHypothesis =>
      exact Steps.standsIn steps inductionHypothesis

/-- A body that is read where a session stands in a text leaves it standing in the text. -/
theorem standsIn_of_surroundings
    {state finished : State} {text : Text}
    (sameBody : finished.surroundings = state.surroundings)
    (shorter : finished.session.rest <:+ state.session.rest)
    (stands : state.session.StandsIn text) :
    finished.session.StandsIn text := by
  have sizes := congrArg (fun body => body.session.size) sameBody
  exact ⟨sizes.trans stands.size, shorter.trans stands.rest⟩

/-- The reading of a whole script ends at the end of the text. -/
theorem BodyRead.rest_of_wholeScript
    {closures : Closures} {state finished : State}
    (reading : BodyRead closures state finished)
    (outermost : state.outer = [])
    (whole : state.wholeScript = true) :
    finished.session.rest = [] := by
  induction reading with
  | textEnd atEnd =>
      rw [rest_flush, rest_settleEnd, atEnd]
  | brace text closing =>
      rcases closing.inBlock with inside | notWhole
      · exact (inside outermost).elim
      · simp [whole] at notWhole
  | construct steps sameDepth _ inductionHypothesis =>
      have sameBody := steps.surroundings_eq sameDepth
      have scripts := congrArg (fun body => body.wholeScript) sameBody
      refine inductionHypothesis ?_ (scripts.trans whole)
      rw [outermost] at sameDepth
      exact List.length_eq_zero_iff.mp sameDepth
  | nested steps deeper body around _ _ inductionHypothesis =>
      obtain ⟨opening, entering⟩ := steps.entering deeper
      have resumed := (surroundings_resume entering body.surroundings_eq around).1
      have scripts := congrArg (fun body => body.wholeScript) resumed
      refine inductionHypothesis ?_ (scripts.trans whole)
      have depths := length_outer_of_surroundings resumed
      rw [outermost] at depths
      exact List.length_eq_zero_iff.mp depths

/-- The outermost body is finished with nothing around it. -/
theorem BodyRead.outer_eq_nil
    {closures : Closures} {state finished : State}
    (reading : BodyRead closures state finished)
    (outermost : state.outer = []) :
    finished.outer = [] := by
  have depths := length_outer_of_surroundings reading.surroundings_eq
  rw [outermost] at depths
  exact List.length_eq_zero_iff.mp depths

/-- What is read of a session is the reading of the outermost body. -/
theorem readBody_eq_of_bodyRead
    {closures : Closures} {session : Session} {mode : Mode} {wholeScript : Bool}
    {finished : State}
    (reading : BodyRead closures (start session mode wholeScript) finished) :
    session.readBody closures mode wholeScript = (finished.session, finished.frame.entries) := by
  have waits : (start session mode wholeScript).Waits := by
    intro suspended member
    cases member
  have runShape := reading.run_eq waits
  unfold afterwards at runShape
  rw [reading.outer_eq_nil rfl] at runShape
  exact runShape

end State

/-- Whether an iteration leaves the cursor in the text and not before where it was, and further on
when the body goes on. -/
def Outcome.ReadsOn (text : Text) (state : State) : Outcome → Prop
  | .goesOn next =>
      next.session.StandsIn text ∧
        state.session.position < next.session.position ∧
        next.session.position ≤ text.length
  | .returns finished =>
      finished.session.StandsIn text ∧
        state.session.position ≤ finished.session.position ∧
        finished.session.position ≤ text.length

/-- Every iteration reads on. -/
theorem State.Iterates.readsOn
    {closures : Closures} {text : Text} {state : State} {outcome : Outcome}
    (iterates : state.Iterates closures outcome)
    (stands : state.session.StandsIn text) :
    outcome.ReadsOn text state := by
  cases outcome with
  | goesOn next =>
      obtain ⟨sameBody, inRest, shorter⟩ := iterates.goesOn
      have nextStands := State.standsIn_of_surroundings sameBody inRest stands
      exact ⟨nextStands, stands.position_lt nextStands shorter, nextStands.position_le⟩
  | returns finished =>
      obtain ⟨sameBody, inRest⟩ := iterates.returns
      have finishedStands := State.standsIn_of_surroundings sameBody inRest stands
      exact
        ⟨finishedStands, stands.position_mono finishedStands inRest.length_le,
          finishedStands.position_le⟩

/--
Reading a body from any place of any text, in any contexts and modes: at every place that is
reached, in the body or in a nested one, there is a further iteration until the text ends, and every
iteration reads on.  So the reading comes to an end, no further back than it began, and that of a
whole script at the end of the text.
-/
theorem readBody_consumes
    (closures : Closures)
    (text : Text)
    (position : Nat)
    (inText : position ≤ text.length)
    (quote : Quote)
    (comment : Comment)
    (interpolation : Interpolation)
    (journal : Journal)
    (mode : Mode)
    (wholeScript : Bool) :
    let session : Session :=
      ⟨text.length, text.drop position, quote, comment, interpolation, journal⟩
    let left := (session.readBody closures mode wholeScript).1
    (∀ state : State,
      State.Reaches closures (State.start session mode wholeScript) state →
      state.session.rest ≠ [] →
      (∃ outcome, state.Iterates closures outcome) ∧
        ∀ outcome, state.Iterates closures outcome → outcome.ReadsOn text state) ∧
      (∃ finished,
        State.BodyRead closures (State.start session mode wholeScript) finished ∧
          session.readBody closures mode wholeScript =
            (finished.session, finished.frame.entries)) ∧
      left.StandsIn text ∧
      position ≤ left.position ∧
      (wholeScript = true → left.position = text.length) := by
  intro session left
  have stands : session.StandsIn text := ⟨rfl, List.drop_suffix position text⟩
  have startPosition : session.position = position := by
    simp only [Session.position, session, List.length_drop]
    omega
  obtain ⟨finished, reading⟩ :=
    State.exists_bodyRead closures (State.start session mode wholeScript)
  have readShape := State.readBody_eq_of_bodyRead reading
  have leftShape : left = finished.session := by
    simp only [left, readShape]
  have leftStands : left.StandsIn text := by
    rw [leftShape]
    exact State.standsIn_of_surroundings reading.surroundings_eq reading.rest_suffix stands
  refine ⟨?_, ⟨finished, reading, readShape⟩, leftStands, ?_, ?_⟩
  · intro state reaches left
    refine ⟨State.exists_iterates closures left, ?_⟩
    intro outcome iterates
    exact iterates.readsOn (reaches.standsIn stands)
  · rw [← startPosition]
    apply stands.position_mono leftStands
    rw [leftShape]
    exact reading.rest_suffix.length_le
  · intro whole
    rw [leftStands.position_eq_length_iff, leftShape]
    exact reading.rest_of_wholeScript rfl whole

/-- A script that breaks off inside two blocks and a literal is read to its end. -/
theorem readBody_consumes_truncated :
    2 ≤ "a \x7b b \x7b c 'd".toList.length ∧
      ((⟨12, "\x7b b \x7b c 'd".toList, {}, {}, {}, {}⟩ : Session).readBody
        Closures.standard {} true).1.position = 12 :=
  ⟨by decide,
    (readBody_consumes Closures.standard "a \x7b b \x7b c 'd".toList 2 (by decide) {} {} {} {} {}
      true).2.2.2.2 rfl⟩

end GradleScript
