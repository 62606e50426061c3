import GradleScript.Proofs.Block.Movement
import Mathlib.Logic.Relation

namespace GradleScript

/-!
# Reading whole bodies

A body with everything nested in it is read from the state in which it is entered to the state in
which it is finished.  `BodyRead` is this relation; its derivations follow the nesting of the
bodies.  Every body is read to its end, the reading leaves the surroundings of the body as they
were, and the reading of the outermost body is what `State.run` computes.
-/

namespace State

/-- One construct leads from a state to the next one. -/
def Steps (closures : Closures) (state next : State) : Prop :=
  state.step closures = .running next

/-- Reading on leads from a state to a later one, through whatever bodies lie between. -/
def Reaches (closures : Closures) : State → State → Prop :=
  Relation.ReflTransGen (Steps closures)

/-- The reading of a body from a state in it to the state in which it is finished, before the body
around it is gone on with. -/
inductive BodyRead (closures : Closures) : State → State → Prop where
  /-- The text ends, and with it the body. -/
  | textEnd
      {state : State}
      (atEnd : state.session.rest = []) :
      BodyRead closures state state.settleEnd.flush
  /-- A brace ends the body. -/
  | brace
      {state : State} {ch : Char} {rest : Text}
      (text : state.session.rest = ch :: rest)
      (closing : Closing state ch rest) :
      BodyRead closures state (state.closedAt ch rest)
  /-- A construct of the body itself is read. -/
  | construct
      {state next finished : State}
      (steps : Steps closures state next)
      (sameDepth : next.outer.length = state.outer.length)
      (reading : BodyRead closures next finished) :
      BodyRead closures state finished
  /-- A nested body is read as a whole, and then the body goes on. -/
  | nested
      {state opened inner finished : State}
      {suspended : Suspended} {outer : List Suspended}
      (steps : Steps closures state opened)
      (deeper : opened.outer.length = state.outer.length + 1)
      (body : BodyRead closures opened inner)
      (around : inner.outer = suspended :: outer)
      (reading : BodyRead closures (inner.resume suspended outer) finished) :
      BodyRead closures state finished

/-! ## Single constructs -/

/-- A step is made at a character, and it is one of the movements. -/
theorem Steps.movement
    {closures : Closures} {state next : State}
    (steps : Steps closures state next) :
    ∃ ch rest, state.session.rest = ch :: rest ∧ Movement state ch rest (.running next) := by
  unfold Steps step at steps
  split at steps
  · cases steps
  · next ch rest text =>
      refine ⟨ch, rest, text, ?_⟩
      rw [← steps]
      exact movement_advance closures state ch rest

/-- A step leaves an end of the text that was left before it. -/
theorem Steps.rest_suffix
    {closures : Closures} {state next : State}
    (steps : Steps closures state next) :
    next.session.rest <:+ state.session.rest := by
  unfold Steps step at steps
  split at steps
  · cases steps
  · next ch rest text =>
      rw [text]
      exact (rest_advance steps).trans (List.suffix_cons ch rest)

/-- A step reads one character of the text or more. -/
theorem Steps.length_rest_lt
    {closures : Closures} {state next : State}
    (steps : Steps closures state next) :
    next.session.rest.length < state.session.rest.length :=
  length_rest_step steps

/-- A run goes on from the next state. -/
theorem Steps.run_eq
    {closures : Closures} {state next : State}
    (steps : Steps closures state next) :
    state.run closures = next.run closures := by
  rw [run]
  unfold Steps at steps
  split
  · next other stepped =>
      rw [steps] at stepped
      cases stepped
      rfl
  · next session entries stepped =>
      rw [steps] at stepped
      cases stepped

/-- A run ends where a construct finishes the outermost body. -/
theorem run_eq_of_closed
    {closures : Closures} {state : State} {session : Session} {entries : Mapping}
    (closed : state.step closures = .closed session entries) :
    state.run closures = (session, entries) := by
  rw [run]
  split
  · next next stepped =>
      rw [closed] at stepped
      cases stepped
  · next otherSession otherEntries stepped =>
      rw [closed] at stepped
      cases stepped
      rfl

/-- A run that has come to a later state ends as a run from that state does. -/
theorem Reaches.run_eq
    {closures : Closures} {state later : State}
    (reaches : Reaches closures state later) :
    state.run closures = later.run closures := by
  induction reaches with
  | refl =>
      rfl
  | tail _ steps inductionHypothesis =>
      exact inductionHypothesis.trans (Steps.run_eq steps)

/-- A run leaves an end of the text that was left before it. -/
theorem Reaches.rest_suffix
    {closures : Closures} {state later : State}
    (reaches : Reaches closures state later) :
    later.session.rest <:+ state.session.rest := by
  induction reaches with
  | refl =>
      exact List.suffix_rfl
  | tail _ steps inductionHypothesis =>
      exact (Steps.rest_suffix steps).trans inductionHypothesis

/-- Where the surroundings are the same, there are as many bodies around. -/
theorem length_outer_of_surroundings
    {first second : State}
    (same : first.surroundings = second.surroundings) :
    first.outer.length = second.outer.length := by
  have depths := congrArg (fun body => body.outer.length) same
  simpa only [length_outer_surroundings] using depths

/-- A body is entered one level deeper. -/
theorem Entering.length_outer
    {state opened : State} {opening : Opening}
    (entering : Entering state opened opening) :
    opened.outer.length = state.outer.length + 1 := by
  obtain ⟨waiting, _, _, enteredShape⟩ := entering.around
  have depths := congrArg (fun body => body.outer.length) enteredShape
  simpa only [entered, List.length_cons, length_outer_surroundings] using depths

/-- The end of the text takes no more of the text. -/
theorem rest_settleEnd
    (state : State) :
    state.settleEnd.session.rest = state.session.rest := by
  unfold settleEnd
  split <;> rfl

/-- A brace that finishes a body is all that is read of the text. -/
theorem rest_closedAt
    (state : State) (ch : Char) (rest : Text) :
    (state.closedAt ch rest).session.rest = rest := by
  unfold closedAt
  rw [rest_flush]
  rfl

/-- A body is left one level higher. -/
theorem length_outer_outOf
    {state : State} {ch : Char} {rest : Text}
    {suspended : Suspended} {outer : List Suspended}
    (around : (state.closedAt ch rest).outer = suspended :: outer) :
    ((state.closedAt ch rest).resume suspended outer).outer.length + 1 = state.outer.length := by
  have depths := length_outer_of_surroundings (surroundings_closedAt state ch rest)
  rw [around, List.length_cons] at depths
  rw [length_outer_resume, depths]

/-- A step that keeps the depth stays in its body. -/
theorem Steps.surroundings_eq
    {closures : Closures} {state next : State}
    (steps : Steps closures state next)
    (sameDepth : next.outer.length = state.outer.length) :
    next.surroundings = state.surroundings := by
  obtain ⟨ch, rest, _, movement⟩ := steps.movement
  cases movement with
  | within surroundings =>
      exact surroundings
  | into opening entering =>
      have deeper := entering.length_outer
      omega
  | outOf closing around =>
      have shallower := length_outer_outOf around
      omega

/-- A step that goes deeper enters a body. -/
theorem Steps.entering
    {closures : Closures} {state opened : State}
    (steps : Steps closures state opened)
    (deeper : opened.outer.length = state.outer.length + 1) :
    ∃ opening, Entering state opened opening := by
  obtain ⟨ch, rest, _, movement⟩ := steps.movement
  cases movement with
  | within surroundings =>
      have sameDepth := length_outer_of_surroundings surroundings
      omega
  | into opening entering =>
      exact ⟨opening, entering⟩
  | outOf closing around =>
      have shallower := length_outer_outOf around
      omega

/-! ## Going on with the body around -/

/-- Going on with the body around a finished one gives it its own surroundings back. -/
theorem surroundings_resume
    {state opened inner : State} {opening : Opening}
    {suspended : Suspended} {outer : List Suspended}
    (entering : Entering state opened opening)
    (sameBody : inner.surroundings = opened.surroundings)
    (around : inner.outer = suspended :: outer) :
    (inner.resume suspended outer).surroundings = state.surroundings ∧
      suspended.frame.Idle := by
  obtain ⟨waiting, idle, mode, enteredShape⟩ := entering.around
  have innerShape := sameBody.trans enteredShape
  have outerShape :
      suspended.unshared :: outer.map Suspended.unshared =
        ⟨waiting, opening⟩ :: state.surroundings.outer := by
    have outers := congrArg (fun body => body.outer) innerShape
    simpa [surroundings, lexical, around, entered] using outers
  obtain ⟨suspendedShape, outerSame⟩ := List.cons.inj outerShape
  have waitingShape : { suspended.frame with shared := [] } = waiting :=
    congrArg Suspended.frame suspendedShape
  have openingShape : suspended.opening = opening :=
    congrArg Suspended.opening suspendedShape
  have sizes : inner.session.size = state.session.size :=
    congrArg (fun body => body.session.size) innerShape
  have restrictions :
      inner.session.interpolation.restricted = state.session.interpolation.restricted :=
    congrArg (fun body => body.session.interpolation.restricted) innerShape
  have contexts :
      inner.session.interpolation.inDependencies =
        opening.inside state.session.interpolation.inDependencies :=
    congrArg (fun body => body.session.interpolation.inDependencies) innerShape
  have scripts : inner.wholeScript = state.wholeScript :=
    congrArg (fun body => body.wholeScript) innerShape
  have modes : suspended.frame.mode = state.frame.mode := by
    rw [← waitingShape] at mode
    exact mode
  constructor
  · refine (surroundings_congr (lexical_resume inner suspended outer)).trans ?_
    refine surroundings_ext sizes ?_ ?_ modes outerSame scripts
    · rw [openingShape]
      cases opening <;> exact restrictions
    · rw [openingShape]
      cases opening with
      | block key remembered =>
          exact entering.remembers key remembered rfl
      | closure key repositories =>
          exact contexts
  · subst waitingShape
    exact ⟨idle.statement, idle.lineStart, idle.previous⟩

/-- Reading a body leaves its surroundings as they were. -/
theorem BodyRead.surroundings_eq
    {closures : Closures} {state finished : State}
    (reading : BodyRead closures state finished) :
    finished.surroundings = state.surroundings := by
  induction reading with
  | textEnd atEnd =>
      simp
  | brace text closing =>
      exact surroundings_closedAt _ _ _
  | construct steps sameDepth _ inductionHypothesis =>
      exact inductionHypothesis.trans (steps.surroundings_eq sameDepth)
  | nested steps deeper _ around _ bodyHypothesis inductionHypothesis =>
      obtain ⟨opening, entering⟩ := steps.entering deeper
      exact inductionHypothesis.trans (surroundings_resume entering bodyHypothesis around).1

/-- Reading a body leaves an end of the text that was left before it. -/
theorem BodyRead.rest_suffix
    {closures : Closures} {state finished : State}
    (reading : BodyRead closures state finished) :
    finished.session.rest <:+ state.session.rest := by
  induction reading with
  | @textEnd state atEnd =>
      have unread : state.settleEnd.flush.session.rest = state.session.rest := by
        rw [rest_flush, rest_settleEnd]
      exact ⟨[], unread⟩
  | @brace state ch rest text closing =>
      rw [text, rest_closedAt]
      exact List.suffix_cons ch rest
  | construct steps sameDepth _ inductionHypothesis =>
      exact inductionHypothesis.trans steps.rest_suffix
  | nested steps deeper _ around _ bodyHypothesis inductionHypothesis =>
      rw [rest_resume] at inductionHypothesis
      exact inductionHypothesis.trans (bodyHypothesis.trans steps.rest_suffix)

/-! ## Every body is read to its end -/

/-- A nested body that is read to its end has the body around it still waiting. -/
theorem BodyRead.exists_around
    {closures : Closures} {opened inner : State} {depth : Nat}
    (body : BodyRead closures opened inner)
    (nested : opened.outer.length = depth + 1) :
    ∃ suspended outer, inner.outer = suspended :: outer := by
  have depths := length_outer_of_surroundings body.surroundings_eq
  cases around : inner.outer with
  | nil =>
      simp [around, nested] at depths
  | cons suspended outer =>
      exact ⟨suspended, outer, rfl⟩

/-- From every state, the reading of its body comes to an end. -/
theorem exists_bodyRead
    (closures : Closures) (state : State) :
    ∃ finished, BodyRead closures state finished := by
  -- By induction on what is left: a nested body leaves less, and the body goes on with that.
  induction left : state.session.rest.length using Nat.strongRecOn generalizing state with
  | ind length inductionHypothesis =>
    cases text : state.session.rest with
    | nil =>
        exact ⟨_, .textEnd text⟩
    | cons ch rest =>
        have movement := movement_advance closures state ch rest
        have stepShape : state.step closures = state.advance closures ch rest := by
          unfold step
          rw [text]
        cases progress : state.advance closures ch rest with
        | closed session entries =>
            rw [progress] at movement
            cases movement with
            | finished closing alone =>
                exact ⟨_, .brace text closing⟩
        | running next =>
            rw [progress] at movement stepShape
            have shorter := Steps.length_rest_lt stepShape
            cases movement with
            | within surroundings =>
                obtain ⟨finished, reading⟩ :=
                  inductionHypothesis _ (left ▸ shorter) next rfl
                exact ⟨finished, .construct stepShape
                  (length_outer_of_surroundings surroundings) reading⟩
            | into opening entering =>
                obtain ⟨inner, body⟩ := inductionHypothesis _ (left ▸ shorter) next rfl
                obtain ⟨suspended, outer, around⟩ := body.exists_around entering.length_outer
                have bodyLength := body.rest_suffix.length_le
                obtain ⟨finished, reading⟩ :=
                  inductionHypothesis _ (by rw [rest_resume]; omega)
                    (inner.resume suspended outer) rfl
                exact ⟨finished, .nested stepShape entering.length_outer body around reading⟩
            | outOf closing around =>
                exact ⟨_, .brace text closing⟩

/-! ## The run of a body -/

/-- Whether every body that waits for a nested one waits between two statements. -/
def Waits (state : State) : Prop :=
  ∀ suspended ∈ state.outer, suspended.frame.Idle

/-- Whether the bodies around wait is part of what a body finds around it. -/
theorem waits_iff_surroundings
    (state : State) :
    state.Waits ↔ ∀ suspended ∈ state.surroundings.outer, suspended.frame.Idle := by
  unfold Waits
  constructor
  · intro waits suspended member
    obtain ⟨original, originalMember, rfl⟩ := List.mem_map.mp member
    have idle := waits original originalMember
    exact ⟨idle.statement, idle.lineStart, idle.previous⟩
  · intro waits suspended member
    have idle := waits _ (List.mem_map_of_mem member)
    exact ⟨idle.statement, idle.lineStart, idle.previous⟩

/-- The bodies around go on waiting where the surroundings stay the same. -/
theorem Waits.of_surroundings
    {first second : State}
    (waits : first.Waits)
    (same : first.surroundings = second.surroundings) :
    second.Waits := by
  rw [waits_iff_surroundings] at waits ⊢
  rw [← same]
  exact waits

/-- Where a body is entered, the body that it is entered from waits. -/
theorem Waits.entering
    {state opened : State} {opening : Opening}
    (waits : state.Waits)
    (entering : Entering state opened opening) :
    opened.Waits := by
  obtain ⟨waiting, idle, _, enteredShape⟩ := entering.around
  rw [waits_iff_surroundings] at waits ⊢
  rw [enteredShape]
  intro suspended member
  rcases List.mem_cons.mp member with isFirst | isOuter
  · rw [isFirst]
    exact idle
  · exact waits suspended isOuter

/-- What a finished body leads to: the result, when it is the outermost one, and otherwise the rest
of the body around it. -/
def afterwards (closures : Closures) (finished : State) : Session × Mapping :=
  match finished.outer with
  | [] =>
      (finished.session, finished.frame.entries)
  | suspended :: outer =>
      (finished.resume suspended outer).run closures

/-- Where there is no statement, ending one changes nothing. -/
theorem flush_of_statement_eq
    {state : State}
    (empty : state.frame.statement = {}) :
    state.flush = state := by
  unfold flush recordText
  simp only [empty, Statement.isFresh, Statement.part]
  simp only [List.isEmpty_nil, Bool.not_true, Bool.and_false, Bool.false_eq_true, if_false,
    Bool.true_or, if_true]
  unfold withStatement
  rw [← empty]

/-- The body around a finished one goes on with its own statement. -/
theorem statement_resume
    (state : State) (suspended : Suspended) (outer : List Suspended) :
    (state.resume suspended outer).frame.statement = suspended.frame.statement :=
  congrArg (fun body => body.frame.statement) (lexical_resume state suspended outer)

/-- Going on with the body around a finished one neither begins nor ends a comment. -/
theorem comment_resume
    (state : State) (suspended : Suspended) (outer : List Suspended) :
    (state.resume suspended outer).session.comment = state.session.comment :=
  congrArg (fun body => body.session.comment) (lexical_resume state suspended outer)

/-- Going on with the body around a finished one neither begins nor ends a name. -/
theorem form_resume
    (state : State) (suspended : Suspended) (outer : List Suspended) :
    (state.resume suspended outer).session.interpolation.form =
      state.session.interpolation.form := by
  have sameForm :=
    congrArg (fun body => body.session.interpolation.form) (lexical_resume state suspended outer)
  apply sameForm.trans
  cases opening : suspended.opening <;> rfl

/-- At the end of the text nothing is left to settle or to store in the bodies that wait. -/
theorem unwind_eq_afterwards
    (closures : Closures) {finished : State}
    (atEnd : finished.session.rest = [])
    (noName : finished.session.interpolation.form = none)
    (waits : finished.Waits) :
    finished.unwind = finished.afterwards closures := by
  unfold unwind afterwards
  split
  · next alone =>
      simp [alone]
  · next suspended outer around =>
      simp only [around]
      have idle := waits suspended (by simp [around])
      have resumedAtEnd : (finished.resume suspended outer).session.rest = [] := by
        rw [rest_resume, atEnd]
      have resumedNoName :
          (finished.resume suspended outer).session.interpolation.form = none := by
        rw [form_resume, noName]
      have resumedIdle : (finished.resume suspended outer).frame.statement = {} := by
        rw [statement_resume, idle.statement]
      refine (run_eq_of_closed ?_).symm
      unfold step finish settleEnd
      simp only [resumedAtEnd, resumedNoName]
      rw [flush_of_statement_eq resumedIdle]

/-- At the end of the text no name is being read. -/
theorem form_settleEnd
    (state : State) :
    state.settleEnd.session.interpolation.form = none := by
  unfold settleEnd
  cases nameForm : state.session.interpolation.form with
  | none =>
      exact nameForm
  | some form =>
      cases form <;> rfl

/-- The end of a statement neither begins nor ends a name. -/
theorem form_flush
    (state : State) :
    state.flush.session.interpolation.form = state.session.interpolation.form :=
  congrArg (fun body => body.session.interpolation.form) (lexical_flush state)

/-- A brace that finishes a body goes on with the body around it, or closes the outermost one. -/
theorem step_of_closing
    (closures : Closures) {state : State} {ch : Char} {rest : Text}
    (text : state.session.rest = ch :: rest)
    (closing : Closing state ch rest) :
    state.step closures =
      match (state.closedAt ch rest).outer with
      | [] =>
          .closed (state.closedAt ch rest).session (state.closedAt ch rest).frame.entries
      | suspended :: outer =>
          .running ((state.closedAt ch rest).resume suspended outer) := by
  unfold step
  rw [text]
  dsimp only
  unfold advance
  dsimp only
  rw [closing.turn]
  unfold take
  dsimp only
  cases around : (state.closedAt ch rest).outer with
  | cons suspended outer =>
      exact closeBlock_of_around around
  | nil =>
      have alone : state.outer = [] := (outer_closedAt_eq_nil_iff state ch rest).mp around
      have notWhole : state.wholeScript = false := closing.inBlock.resolve_left (by simp [alone])
      rw [closeBlock_of_alone around, notWhole]
      rfl

/-- The run of a body is the reading of the body and what that leads to. -/
theorem BodyRead.run_eq
    {closures : Closures} {state finished : State}
    (reading : BodyRead closures state finished)
    (waits : state.Waits) :
    state.run closures = finished.afterwards closures := by
  induction reading with
  | @textEnd state atEnd =>
      have finishedAtEnd : state.settleEnd.flush.session.rest = [] := by
        rw [rest_flush, rest_settleEnd, atEnd]
      have noName : state.settleEnd.flush.session.interpolation.form = none := by
        rw [form_flush, form_settleEnd]
      have finishedWaits : state.settleEnd.flush.Waits :=
        waits.of_surroundings (by simp)
      rw [← unwind_eq_afterwards closures finishedAtEnd noName finishedWaits]
      apply run_eq_of_closed
      unfold step
      rw [atEnd]
      rfl
  | brace text closing =>
      have stepShape := step_of_closing closures text closing
      unfold afterwards
      split
      · next alone =>
          simp only [alone] at stepShape
          exact run_eq_of_closed stepShape
      · next suspended outer around =>
          simp only [around] at stepShape
          exact Steps.run_eq stepShape
  | construct steps sameDepth _ inductionHypothesis =>
      rw [steps.run_eq]
      exact inductionHypothesis (waits.of_surroundings (steps.surroundings_eq sameDepth).symm)
  | nested steps deeper body around _ bodyHypothesis inductionHypothesis =>
      obtain ⟨opening, entering⟩ := steps.entering deeper
      have innerRun := bodyHypothesis (waits.entering entering)
      have resumed := (surroundings_resume entering body.surroundings_eq around).1
      rw [steps.run_eq, innerRun]
      unfold afterwards at innerRun ⊢
      simp only [around]
      exact inductionHypothesis (waits.of_surroundings resumed.symm)

end State

end GradleScript
