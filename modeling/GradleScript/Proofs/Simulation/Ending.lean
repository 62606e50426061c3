import GradleScript.Proofs.Block.Lines
import GradleScript.Proofs.Block.Pieces
import GradleScript.Proofs.Scan.Closers
import GradleScript.Proofs.Simulation.Alike

namespace GradleScript

/-!
# The end of a text and closers

At the end of a text the name and the statement that are being read end, and then every body that
is open, innermost first.  Closers do the same one after the other: a line end ends the name, the
statement and a line comment, and each brace a body.  A brace outside every body of a script does
nothing, and a block comment takes all of them in, but it leaves no statement behind that could
still end.
-/

/-- What a run denotes, and the variables that it leaves. -/
def outcome (result : Session × Mapping) : Mapping × Variables :=
  (result.2, result.1.journal.table)

namespace State

/-- Finishing the open bodies keeps what two states have stored the same. -/
theorem outcome_unwind_of_storedAlike
    {first second : State}
    (stored : StoredAlike first second) :
    outcome second.unwind = outcome first.unwind := by
  obtain ⟨last, otherLast, lastStored, finish, otherFinish⟩ :=
    storeSimulation_storedAlike.unwind stored
  rw [finish, otherFinish]
  exact congrArg (fun storage : Storage => (storage.entries, storage.table)) lastStored

/-- States with the same stored side have stored the same. -/
theorem storedAlike_of_stored
    {first second : State}
    (same : second.stored = first.stored) :
    StoredAlike first second :=
  congrArg (fun body => body.storage) same

/-! ## Comments stand apart -/

/-- Whether a comment that is being read stands outside statements, names and literals. -/
def CommentApart (state : State) : Prop :=
  state.session.comment.isOpen = true →
    state.frame.statement = {} ∧
      state.session.interpolation.form = none ∧
      state.session.quote.isOpen = false

/-- A comment starts outside names and literals. -/
theorem contexts_closed_of_commentStart
    {state : State} {ch : Char} {rest : Text} {kind : CommentKind}
    (turn : state.turn ch rest = .commentStart kind) :
    state.session.interpolation.form = none ∧ state.session.quote.isOpen = false := by
  have notOfStatement : state.frame.statement.turn ch ≠ .commentStart kind := by
    unfold Statement.turn
    repeat' split
    all_goals simp
  unfold State.turn Interpolation.isOpen at turn
  dsimp only at turn
  repeat' split at turn
  all_goals simp_all

/-- A comment stands apart after every construct. -/
theorem Steps.commentApart
    {closures : Closures} {state next : State}
    (steps : Steps closures state next)
    (apart : state.CommentApart) :
    next.CommentApart := by
  obtain ⟨ch, rest, _, advanced⟩ := steps_iff.mp steps
  unfold advance at advanced
  dsimp only at advanced
  by_cases isOpen : state.session.comment.isOpen = true
  · have settled : state.settle ch = state := by
      unfold settle
      rw [if_pos isOpen]
    have turn : state.turn ch rest = .comment := by
      unfold State.turn
      dsimp only
      rw [if_pos isOpen]
    rw [settled, turn] at advanced
    cases advanced
    intro _
    unfold readComment
    dsimp only
    split <;> exact apart isOpen
  · have settledClosed : ¬(state.settle ch).session.comment.isOpen = true := by
      rw [comment_settle]
      exact isOpen
    have notComment : (state.settle ch).turn ch rest ≠ .comment :=
      fun isComment => settledClosed (comment_isOpen_of_turn isComment)
    intro nextOpen
    by_cases starts : ∃ kind, (state.settle ch).turn ch rest = .commentStart kind
    · obtain ⟨kind, turn⟩ := starts
      obtain ⟨noName, quoteClosed⟩ := contexts_closed_of_commentStart turn
      rw [turn] at advanced
      cases advanced
      have ended := lexical_flush ((state.settle ch).withLineStart false)
      refine ⟨congrArg (fun body => body.frame.statement) ended, ?_, ?_⟩
      · exact (form_flush _).trans noName
      · exact (congrArg (fun body => body.session.quote.isOpen) ended).trans quoteClosed
    · have same :=
        comment_take notComment (fun kind turn => starts ⟨kind, turn⟩) advanced
      rw [same] at nextOpen
      exact (settledClosed nextOpen).elim

/-- Along a run every comment stands outside statements, names and literals. -/
theorem Reaches.commentApart
    {closures : Closures} {state later : State}
    (reaches : Reaches closures state later)
    (apart : state.CommentApart) :
    later.CommentApart := by
  induction reaches with
  | refl =>
      exact apart
  | tail _ steps inductionHypothesis =>
      exact steps.commentApart inductionHypothesis

/-- Along a run the bodies around wait between two statements. -/
theorem Reaches.waits
    {closures : Closures} {state later : State}
    (reaches : Reaches closures state later)
    (waits : state.Waits) :
    later.Waits := by
  induction reaches with
  | refl =>
      exact waits
  | tail _ steps inductionHypothesis =>
      exact steps.waits inductionHypothesis

/-! ## Closers between two statements -/

/-- Going on with the body around a finished one stays outside comments, names and literals. -/
theorem Calm.resume
    {state : State}
    (calm : state.Calm)
    (suspended : Suspended) (outer : List Suspended) :
    (state.resume suspended outer).Calm := by
  have resumed := lexical_resume state suspended outer
  refine ⟨?_, ?_, ?_⟩
  · rw [comment_resume]
    exact calm.comment
  · rw [form_resume]
    exact calm.name
  · exact (congrArg (fun body => body.session.quote.isOpen) resumed).trans calm.quote

/-- A brace between two statements ends the body around them, as the end of the text would; in a
script outside every body, it leaves everything as it is. -/
theorem Calm.steps_brace
    (closures : Closures) {state : State} {rest : Text}
    (calm : state.Calm)
    (empty : state.frame.statement = {})
    (waits : state.Waits)
    (whole : state.wholeScript = true)
    (text : state.session.rest = '}' :: rest) :
    ∃ next,
      Steps closures state next ∧
        next.Calm ∧ next.frame.statement = {} ∧ next.session.rest = rest ∧
          outcome next.unwind = outcome state.unwind := by
  have turnShape : state.turn '}' rest = .blockEnd := by
    rw [calm.turn_eq rest (by decide) (fun _ => by decide) (by decide)
      (fun isDollar => absurd isDollar (by decide)) (by decide), empty]
    rfl
  have settled : state.settle '}' = state := settle_of_noName calm.name
  have closedShape : state.closedAt '}' rest = (state.withLineStart false).withRest rest := by
    unfold closedAt
    rw [settled]
    exact flush_of_statement_eq empty
  have closedCalm : (state.closedAt '}' rest).Calm := by
    rw [closedShape]
    exact ⟨calm.comment, calm.name, calm.quote⟩
  have closedStored : StoredAlike state (state.closedAt '}' rest) := by
    rw [closedShape]
    rfl
  have closedRest : (state.closedAt '}' rest).session.rest = rest := by
    rw [closedShape]
    rfl
  cases around : state.outer with
  | cons suspended outer =>
      have closedAround : (state.closedAt '}' rest).outer = suspended :: outer := by
        rw [closedShape]
        exact around
      have closed := closeBlock_of_around closedAround
      rw [settled] at closed
      refine ⟨_, calm.steps text turnShape closed, closedCalm.resume suspended outer, ?_, ?_, ?_⟩
      · rw [statement_resume]
        exact (waits suspended (around ▸ List.mem_cons_self)).statement
      · rw [rest_resume]
        exact closedRest
      · rw [unwind_of_around around]
        exact outcome_unwind_of_storedAlike
          (storeSimulation_storedAlike.resume closedStored suspended outer)
  | nil =>
      have closedAlone : (state.closedAt '}' rest).outer = [] := by
        rw [closedShape]
        exact around
      have closed := closeBlock_of_alone closedAlone
      rw [settled, whole, if_pos rfl] at closed
      refine ⟨_, calm.steps text turnShape closed,
        ⟨closedCalm.comment, closedCalm.name, closedCalm.quote⟩, ?_, closedRest, ?_⟩
      · rw [closedShape]
        exact empty
      · exact outcome_unwind_of_storedAlike closedStored

/-- A line end between two statements leaves everything as it is. -/
theorem Calm.steps_emptyLine
    (closures : Closures) {state : State} {rest : Text}
    (calm : state.Calm)
    (empty : state.frame.statement = {})
    (text : state.session.rest = '\n' :: rest) :
    ∃ next,
      Steps closures state next ∧
        next.Calm ∧ next.frame.statement = {} ∧ next.session.rest = rest ∧
          outcome next.unwind = outcome state.unwind := by
  obtain ⟨next, steps, atLine, nextText, nextStored⟩ := calm.done.steps closures text
  rw [flush_of_statement_eq empty] at nextStored
  exact
    ⟨next, steps, atLine.calm, atLine.statement, nextText,
      outcome_unwind_of_storedAlike (storedAlike_of_stored nextStored)⟩

/-- Where nothing is pending at the end of a text, only the bodies are left to be finished. -/
theorem outcome_run_of_reaches_end
    {closures : Closures} {state last : State}
    (reaches : Reaches closures state last)
    (atEnd : last.session.rest = [])
    (noName : last.session.interpolation.form = none)
    (empty : last.frame.statement = {}) :
    outcome (state.run closures) = outcome last.unwind := by
  rw [run_eq_of_reaches_end reaches atEnd, finish_of_noName noName, flush_of_statement_eq empty]

/-- Between two statements, closers do what the end of the text does. -/
theorem Calm.outcome_run
    (closures : Closures) {state : State} {closers : Text}
    (calm : state.Calm)
    (empty : state.frame.statement = {})
    (waits : state.Waits)
    (whole : state.wholeScript = true)
    (isClosers : Closers closers)
    (inClosers : state.session.rest <:+ closers) :
    outcome (state.run closures) = outcome state.unwind := by
  generalize text : state.session.rest = left at inClosers
  induction left generalizing state with
  | nil =>
      exact outcome_run_of_reaches_end .refl text calm.name empty
  | cons ch left inductionHypothesis =>
      have isCloser : ch = '\n' ∨ ch = '}' :=
        isClosers.eq_of_mem (inClosers.subset List.mem_cons_self)
      obtain ⟨next, steps, nextCalm, nextEmpty, nextText, same⟩ :
          ∃ next,
            Steps closures state next ∧
              next.Calm ∧ next.frame.statement = {} ∧ next.session.rest = left ∧
                outcome next.unwind = outcome state.unwind := by
        rcases isCloser with rfl | rfl
        · exact calm.steps_emptyLine closures empty text
        · exact calm.steps_brace closures empty waits whole text
      rw [steps.run_eq, ← same]
      exact inductionHypothesis nextCalm nextEmpty (steps.waits waits)
        (steps.wholeScript_eq.trans whole) nextText ((List.suffix_cons ch left).trans inClosers)

/-! ## Closers in every context -/

/-- A block comment takes in every character but a slash. -/
theorem steps_blockComment
    (closures : Closures) {state : State} {ch : Char} {rest : Text}
    (inComment : state.session.comment.kind = some .block)
    (noName : state.session.interpolation.form = none)
    (notSlash : ch ≠ '/')
    (text : state.session.rest = ch :: rest) :
    Steps closures state
      ((state.withRest rest).withComment ⟨some .block, ch :: state.session.comment.heard⟩) := by
  have goesOn :
      state.session.comment.hear [ch] =
        (false, ⟨some .block, ch :: state.session.comment.heard⟩) := by
    have shape : state.session.comment = ⟨some .block, state.session.comment.heard⟩ :=
      congrArg (fun kind => (⟨kind, state.session.comment.heard⟩ : Comment)) inComment
    rw [shape]
    exact hear_blockComment fun isSlash => (notSlash isSlash).elim
  have turn : state.turn ch rest = .comment := by
    unfold State.turn Comment.isOpen
    dsimp only
    rw [inComment]
    rfl
  apply steps_of_turn text (settle_of_noName noName) turn
  unfold take readComment
  rw [goesOn]
  rfl

/-- A block comment takes in what has no slash, and ends with the text. -/
theorem outcome_run_of_blockComment
    (closures : Closures) {state : State}
    (inComment : state.session.comment.kind = some .block)
    (apart : state.CommentApart)
    (noSlash : '/' ∉ state.session.rest) :
    outcome (state.run closures) = outcome state.unwind := by
  have isOpen : state.session.comment.isOpen = true := by
    unfold Comment.isOpen
    rw [inComment]
    rfl
  obtain ⟨empty, noName, quoteClosed⟩ := apart isOpen
  generalize text : state.session.rest = left at noSlash
  induction left generalizing state with
  | nil =>
      rw [run_eq_of_reaches_end .refl text, finish_of_noName noName, flush_of_statement_eq empty]
  | cons ch rest inductionHypothesis =>
      have notSlash : ch ≠ '/' := by
        rintro rfl
        exact noSlash List.mem_cons_self
      have steps := steps_blockComment closures inComment noName notSlash text
      have stored :
          StoredAlike state ((state.withRest rest).withComment
            ⟨some .block, ch :: state.session.comment.heard⟩) :=
        rfl
      rw [steps.run_eq, ← outcome_unwind_of_storedAlike stored]
      exact inductionHypothesis rfl (steps.commentApart apart) rfl empty noName quoteClosed rfl
        fun member => noSlash (List.mem_cons_of_mem ch member)

/-- Outside comments, a line end ends a name as the end of the text does. -/
theorem step_settleEnd
    (closures : Closures) {state : State} {rest : Text}
    (noComment : state.session.comment.isOpen = false)
    (text : state.session.rest = '\n' :: rest) :
    state.settleEnd.step closures = state.step closures := by
  have settled : state.settle '\n' = state.settleEnd := by
    unfold settle settleEnd
    rw [noComment]
    rfl
  have settledTwice : state.settleEnd.settle '\n' = state.settleEnd :=
    settle_of_noName (form_settleEnd state)
  unfold step
  rw [rest_settleEnd, text]
  unfold advance
  dsimp only
  rw [settled, settledTwice]

/-- Whatever is being read, closers do what the end of the text does. -/
theorem outcome_run_of_closers
    (closures : Closures) {state : State}
    (apart : state.CommentApart)
    (waits : state.Waits)
    (whole : state.wholeScript = true)
    (isClosers : Closers state.session.rest) :
    outcome (state.run closures) = outcome state.finish := by
  have afterLineEnd {next : State} {rest : Text}
      (steps : Steps closures state next)
      (atLine : next.AtLine)
      (text : state.session.rest = '\n' :: rest)
      (nextText : next.session.rest = rest) :
      outcome (state.run closures) = outcome next.unwind := by
    rw [steps.run_eq]
    apply atLine.calm.outcome_run closures atLine.statement (steps.waits waits)
      (steps.wholeScript_eq.trans whole) isClosers
    rw [nextText, text]
    exact List.suffix_cons '\n' rest
  cases text : state.session.rest with
  | nil =>
      rw [run_eq_of_reaches_end .refl text]
  | cons ch rest =>
      obtain rfl : ch = '\n' := by
        rw [text] at isClosers
        cases isClosers <;> rfl
      by_cases isOpen : state.session.comment.isOpen = true
      · obtain ⟨empty, noName, quoteClosed⟩ := apart isOpen
        rw [finish_of_noName noName, flush_of_statement_eq empty]
        obtain ⟨kind, inComment⟩ := Option.isSome_iff_exists.mp isOpen
        cases kind with
        | block =>
            exact outcome_run_of_blockComment closures inComment apart
              (isClosers.not_mem (by decide) (by decide))
        | line =>
            have done : state.LineDone := ⟨noName, quoteClosed, .inr ⟨inComment, empty⟩⟩
            obtain ⟨next, steps, atLine, nextText, nextStored⟩ := done.steps closures text
            rw [flush_of_statement_eq empty] at nextStored
            exact (afterLineEnd steps atLine text nextText).trans
              (outcome_unwind_of_storedAlike (storedAlike_of_stored nextStored))
      · rw [Bool.not_eq_true] at isOpen
        have noName := form_settleEnd state
        have noComment : state.settleEnd.session.comment.isOpen = false := by
          rw [comment_settleEnd]
          exact isOpen
        have settledText : state.settleEnd.session.rest = '\n' :: rest := by
          rw [rest_settleEnd, text]
        have settledSteps := steps_lineEnd closures noComment noName settledText
        have steps : Steps closures state (state.settleEnd.readLineEnd '\n' rest) :=
          (step_settleEnd closures isOpen text).symm.trans settledSteps
        have stored := stored_readLineEnd state.settleEnd '\n' rest
        exact (afterLineEnd steps (atLine_readLineEnd noComment noName '\n' rest) text
          (rest_readLineEnd state.settleEnd '\n' rest)).trans
            (outcome_unwind_of_storedAlike (storedAlike_of_stored stored))

end State

end GradleScript
