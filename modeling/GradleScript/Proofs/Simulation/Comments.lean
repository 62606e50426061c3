import GradleScript.Proofs.Simulation.Fronts
import GradleScript.Proofs.Simulation.Returns

namespace GradleScript

/-!
# Comments as line ends

Where a comment starts, the statement before it ends, as it does at a line end.  After the comment
the line has just begun, too.  So a comment does what a line end does, in a text without
backslashes, which would escape a character after the comment.
-/

/-- Whether nothing has been heard of a comment that is not being read. -/
def Comment.Tidy (comment : Comment) : Prop :=
  comment.isOpen = false → comment = .closed

/-- A comment that has heard its end mark is closed, and nothing has been heard of it. -/
theorem Comment.hear_of_ended
    {comment : Comment} {ch : Char}
    (ended : (comment.hear [ch]).1 = true) :
    (comment.hear [ch]).2 = .closed := by
  unfold Comment.hear at ended ⊢
  split at ended
  · split at ended
    · next isEnd =>
        rw [if_pos isEnd]
    · cases ended
  · split at ended
    · next isEnd =>
        rw [if_pos isEnd]
    · cases ended

/-- The comment after a text, of which it is a part up to its end mark; closed behind the mark. -/
def Comment.afterHearing (comment : Comment) : Text → Comment
  | [] =>
      comment
  | ch :: rest =>
      if (comment.hear [ch]).1 then
        .closed
      else
        (comment.hear [ch]).2.afterHearing rest

/-- A comment ends in a text, or it takes the whole text. -/
theorem Comment.afterHearing_cases
    {comment : Comment}
    (isOpen : comment.isOpen = true)
    (text : Text) :
    comment.afterHearing text = .closed ∨
      (comment.afterHearing text).isOpen = true ∧ comment.remaining text = [] := by
  induction text generalizing comment with
  | nil =>
      exact .inr ⟨isOpen, rfl⟩
  | cons ch rest inductionHypothesis =>
      rw [afterHearing, remaining]
      by_cases ended : (comment.hear [ch]).1 = true
      · rw [if_pos ended]
        exact .inl rfl
      · rw [if_neg ended, if_neg ended]
        exact inductionHypothesis
          (State.isOpen_hear_of_goesOn isOpen (Bool.eq_false_iff.mpr ended))

namespace State

/-! ## What comments and characters leave behind -/

/-- No construct leaves anything of a comment that has ended. -/
theorem Steps.comment_tidy
    {closures : Closures} {state next : State}
    (steps : Steps closures state next)
    (tidy : state.session.comment.Tidy) :
    next.session.comment.Tidy := by
  obtain ⟨ch, rest, text, advanced⟩ := steps_iff.mp steps
  by_cases isOpen : state.session.comment.isOpen = true
  · rw [steps_rightUnique closures steps (steps_readComment closures isOpen text)]
    have comment :
        (state.readComment ch rest).session.comment = (state.session.comment.hear [ch]).2 := by
      unfold readComment
      dsimp only
      split <;> rfl
    rw [comment]
    intro isClosed
    by_cases ended : (state.session.comment.hear [ch]).1 = true
    · exact Comment.hear_of_ended ended
    · have stillOpen := isOpen_hear_of_goesOn isOpen (Bool.eq_false_iff.mpr ended)
      cases isClosed.symm.trans stillOpen
  · have notComment : (state.settle ch).turn ch rest ≠ .comment := by
      intro isComment
      have settledOpen := comment_isOpen_of_turn isComment
      rw [comment_settle] at settledOpen
      exact isOpen settledOpen
    by_cases starts : ∃ kind, (state.settle ch).turn ch rest = .commentStart kind
    · obtain ⟨kind, turn⟩ := starts
      unfold advance at advanced
      dsimp only at advanced
      rw [turn] at advanced
      cases advanced
      exact nofun
    · have same := comment_take notComment (fun kind turn => starts ⟨kind, turn⟩) advanced
      rw [same, comment_settle]
      exact tidy

/-- No run leaves a part of a comment that is not being read. -/
theorem Reaches.comment_tidy
    {closures : Closures} {state later : State}
    (reaches : Reaches closures state later)
    (tidy : state.session.comment.Tidy) :
    later.session.comment.Tidy := by
  induction reaches with
  | refl =>
      exact tidy
  | tail _ steps inductionHypothesis =>
      exact steps.comment_tidy inductionHypothesis

/-- The end of a statement leaves the character before the next one. -/
theorem previous_flush
    (state : State) :
    state.flush.frame.previous = state.frame.previous :=
  congrArg (fun body => body.frame.previous) (lexical_flush state)

/-- The body around a finished one goes on with its own character before. -/
theorem previous_resume
    (state : State) (suspended : Suspended) (outer : List Suspended) :
    (state.resume suspended outer).frame.previous = suspended.frame.previous :=
  congrArg (fun body => body.frame.previous) (lexical_resume state suspended outer)

/-- A key, whatever it leads to, leaves the character before the next one. -/
theorem previous_dispatchKey
    (state : State) :
    state.dispatchKey.frame.previous = state.frame.previous := by
  unfold dispatchKey
  dsimp only
  split
  · split <;> rfl
  · split <;> rfl

/-- After a construct, the character before is the first one of the construct, or it is the same as
before, or there is none. -/
theorem previous_take
    {closures : Closures} {state next : State} {ch : Char} {rest : Text} {turn : Turn}
    (waits : state.Waits)
    (taken : state.take closures ch rest turn = .running next) :
    next.frame.previous = some ch ∨ next.frame.previous = state.frame.previous ∨
      next.frame.previous = none := by
  cases turn with
  | comment =>
      cases taken
      unfold readComment
      dsimp only
      split <;> exact .inr (.inl rfl)
  | namePart =>
      cases taken
      unfold readNamePart
      dsimp only
      split
      · exact .inr (.inl rfl)
      · exact .inl rfl
  | nameEnd | lineEnd | quoted =>
      cases taken
      exact .inl rfl
  | indentation =>
      cases taken
      exact .inr (.inl rfl)
  | commentStart kind =>
      cases taken
      exact .inr (.inl (previous_flush (state.withLineStart false)))
  | nameStart =>
      cases taken
      unfold readNameStart
      dsimp only
      split <;> exact .inr (.inl rfl)
  | call | array =>
      cases taken
      exact .inr (.inr rfl)
  | blockStart =>
      cases taken
      unfold openBlock
      dsimp only
      split
      · exact .inr (.inr (congrArg (fun body => body.frame.previous) (lexical_storeClosure _ _ _)))
      all_goals exact .inr (.inr rfl)
  | blockEnd =>
      have flushed := previous_flush ((state.withLineStart false).withRest rest)
      have waiting : ((state.withLineStart false).withRest rest).flush.Waits :=
        waits.of_surroundings (by simp)
      unfold take closeBlock at taken
      dsimp only at taken
      split at taken
      · next suspended outer around =>
          cases taken
          have idle := waiting suspended (around ▸ List.mem_cons_self)
          exact .inr (.inr ((previous_resume _ suspended outer).trans idle.previous))
      · split at taken
        · cases taken
          exact .inr (.inl flushed)
        · cases taken
  | keyEnd =>
      cases taken
      unfold readKeyEnd
      dsimp only
      split
      · exact .inl rfl
      · exact .inl (previous_dispatchKey _)
  | plain =>
      cases taken
      unfold readPlain
      dsimp only
      split <;> exact .inl rfl

/-- In a text without a backslash, none comes before any construct. -/
theorem Reaches.previous_ne
    {closures : Closures} {state later : State}
    (reaches : Reaches closures state later)
    (waits : state.Waits)
    (noBackslash : '\\' ∉ state.session.rest)
    (unescaped : state.frame.previous ≠ some '\\') :
    later.frame.previous ≠ some '\\' := by
  induction reaches with
  | refl =>
      exact unescaped
  | tail reached steps inductionHypothesis =>
      obtain ⟨ch, rest, text, advanced⟩ := steps_iff.mp steps
      have inText : ch ∈ state.session.rest :=
        (Reaches.rest_suffix reached).subset (text ▸ List.mem_cons_self)
      have settledWaits := (Reaches.waits reached waits).of_surroundings
        (surroundings_settle _ ch).symm
      intro isBackslash
      rcases previous_take settledWaits advanced with isFirst | isSame | isNone
      · rw [isBackslash] at isFirst
        cases isFirst
        exact noBackslash inText
      · rw [isSame, previous_settle] at isBackslash
        exact inductionHypothesis isBackslash
      · rw [isBackslash] at isNone
        cases isNone

/-! ## From the start of a comment to what comes after it -/

/-- A comment starts after the name before it has ended, as at the end of a line. -/
theorem settle_of_commentStart
    {state : State} {rest : Text} {kind : CommentKind}
    (turn : (state.settle '/').turn '/' rest = .commentStart kind) :
    state.session.comment.isOpen = false ∧ state.settle '/' = state.settleEnd := by
  have noComment : state.session.comment.isOpen = false := by
    rw [← Bool.not_eq_true]
    intro isOpen
    have isComment : (state.settle '/').turn '/' rest = .comment := by
      unfold State.turn
      dsimp only
      rw [comment_settle, if_pos isOpen]
    cases turn.symm.trans isComment
  have noName := (contexts_closed_of_commentStart turn).1
  refine ⟨noComment, ?_⟩
  unfold settle settleEnd at *
  rw [noComment, if_neg Bool.false_ne_true] at noName ⊢
  cases form : state.session.interpolation.form with
  | none =>
      rfl
  | some form' =>
      cases form' with
      | bare =>
          rfl
      | braced =>
          simp [form] at noName

/-- Whether reading leads from one state to another while a comment is being read at every state
before the last one. -/
def HearsTo (closures : Closures) : State → State → Prop :=
  Relation.ReflTransGen fun state next =>
    state.session.comment.isOpen = true ∧ Steps closures state next

/-- What reading a comment leads to is reached. -/
theorem HearsTo.reaches
    {closures : Closures} {state later : State}
    (hears : HearsTo closures state later) :
    Reaches closures state later :=
  Relation.ReflTransGen.mono (fun _ _ heard => heard.2) _ _ hears

/-- A comment is read to its end, or to the end of the text, and nothing else changes but that a
line begins behind its end. -/
theorem hearsTo_afterComment
    (closures : Closures) {state : State}
    (isOpen : state.session.comment.isOpen = true) :
    HearsTo closures state
      (((state.withRest (state.session.comment.remaining state.session.rest)).withComment
        (state.session.comment.afterHearing state.session.rest)).withLineStart
          (state.frame.lineStart ||
            !(state.session.comment.afterHearing state.session.rest).isOpen)) := by
  generalize text : state.session.rest = rest
  induction rest generalizing state with
  | nil =>
      have same :
          ((state.withRest []).withComment state.session.comment).withLineStart
            (state.frame.lineStart || !state.session.comment.isOpen) = state := by
        rw [isOpen, Bool.not_true, Bool.or_false]
        unfold withRest
        rw [← text]
        rfl
      rw [Comment.remaining, Comment.afterHearing, same]
      exact .refl
  | cons ch rest inductionHypothesis =>
      have steps := steps_readComment closures isOpen text
      rw [Comment.remaining, Comment.afterHearing]
      by_cases ended : (state.session.comment.hear [ch]).1 = true
      · have read :
            state.readComment ch rest =
              ((state.withRest rest).withComment .closed).withLineStart true := by
          unfold readComment
          dsimp only
          rw [if_pos ended, Comment.hear_of_ended ended]
        have begun : (state.frame.lineStart || !Comment.closed.isOpen) = true :=
          Bool.or_true _
        rw [if_pos ended, if_pos ended, begun]
        rw [read] at steps
        exact .single ⟨isOpen, steps⟩
      · have read :
            state.readComment ch rest =
              (state.withRest rest).withComment (state.session.comment.hear [ch]).2 := by
          unfold readComment
          dsimp only
          rw [if_neg ended]
        let heard := (state.withRest rest).withComment (state.session.comment.hear [ch]).2
        have heardText : heard.session.rest = rest := rfl
        have stillOpen : heard.session.comment.isOpen = true :=
          isOpen_hear_of_goesOn isOpen (Bool.eq_false_iff.mpr ended)
        rw [if_neg ended, if_neg ended]
        rw [read] at steps
        exact .head ⟨isOpen, steps⟩ (inductionHypothesis stillOpen heardText)

/-- An open comment is read to the character behind its end mark, or to the end of the text. -/
theorem reaches_afterComment
    (closures : Closures) {state : State}
    (isOpen : state.session.comment.isOpen = true) :
    Reaches closures state
        (((state.withRest (state.session.comment.remaining state.session.rest)).withComment
          .closed).withLineStart true) ∨
      state.session.comment.remaining state.session.rest = [] ∧
        ∃ comment, Reaches closures state ((state.withRest []).withComment comment) := by
  have reaches := (hearsTo_afterComment closures isOpen).reaches
  rcases Comment.afterHearing_cases isOpen state.session.rest with ends | ⟨goesOn, nothing⟩
  · have begun : (state.frame.lineStart || !Comment.closed.isOpen) = true :=
      Bool.or_true _
    rw [ends, begun] at reaches
    exact .inl reaches
  · rw [goesOn, nothing, Bool.not_true, Bool.or_false] at reaches
    exact .inr ⟨nothing, _, reaches⟩

/-! ## A comment and a line end -/

/-- After a comment, outside literals and without a backslash before it, a state is read on as after
a line end. -/
theorem reading_afterComment
    {state : State}
    (tidy : state.session.comment = .closed)
    (quoteClosed : state.session.quote.isOpen = false)
    (unescaped : state.frame.previous ≠ some '\\')
    (rest : Text) :
    ((((state.withStatement {}).withRest rest).withComment .closed).withLineStart true).reading =
      (state.lineEnded rest).reading := by
  have noQuote : state.reading.session.quote = .closed := by
    change state.session.quote.unmarked = .closed
    exact if_neg (by rw [quoteClosed]; exact Bool.false_ne_true)
  have noComment : state.reading.session.comment = .closed := by
    change state.session.comment.recent = .closed
    rw [tidy]
    rfl
  have noEscape : state.reading.frame.previous = none := if_neg unescaped
  calc
    ((((state.withStatement {}).withRest rest).withComment .closed).withLineStart true).reading =
        { state.reading with
          session := {
            state.reading.session with
            quote := state.reading.session.quote
            comment := .closed }
          frame := {
            state.reading.frame with
            statement := {}
            lineStart := true
            previous := state.reading.frame.previous } } := rfl
    _ = { state.reading with
          session := {
            state.reading.session with
            quote := .closed
            comment := state.reading.session.comment }
          frame := {
            state.reading.frame with
            statement := {}
            lineStart := true
            previous := none } } := by
      rw [noQuote, noComment, noEscape]
    _ = (state.lineEnded rest).reading := rfl

/-- What is stored where a comment starts is stored where the line ends. -/
theorem Alike.stored_commentStart
    {follows : Text → Text → Prop} {first second : State}
    (alike : Alike follows first second)
    (kind : CommentKind) (rest otherRest : Text) :
    StoredAlike ((first.withLineStart false).readCommentStart kind rest)
      (second.readLineEnd '\n' otherRest) := by
  have statement : second.frame.statement = first.frame.statement :=
    (namingSimulation_alike follows).statement alike
  have mode : second.frame.mode = first.frame.mode := (namingSimulation_alike follows).mode alike
  have stored : StoredAlike (first.withLineStart false) (second.withRest otherRest) := alike.stored
  have flushed : StoredAlike (first.withLineStart false).flush (second.withRest otherRest).flush :=
    storedAlike_flush stored mode (congrArg Statement.key statement)
      (congrArg (fun statement : Statement => strip statement.part) statement)
  exact flushed

/-- What is read after the comment is read as it is after the line end. -/
theorem Alike.reading_commentEnd
    {follows : Text → Text → Prop} {first second : State}
    (alike : Alike follows first second)
    (noComment : first.session.comment = .closed)
    (quoteClosed : first.session.quote.isOpen = false)
    (unescaped : first.frame.previous ≠ some '\\')
    (kind : CommentKind) (rest remaining : Text) :
    (second.readLineEnd '\n' remaining).reading =
      (((((first.withLineStart false).readCommentStart kind rest).withRest remaining).withComment
        .closed).withLineStart true).reading := by
  have flushed := lexical_flush (first.withLineStart false)
  calc
    (second.readLineEnd '\n' remaining).reading = (second.lineEnded remaining).reading :=
      reading_congr (lexical_readLineEnd second remaining)
    _ = (first.lineEnded remaining).reading :=
      congrArg
        (fun body =>
          (((body.withStatement {}).withQuote .closed).withLineStart true).withPrevious none)
        alike.reading
    _ = ((((first.withStatement {}).withRest remaining).withComment .closed).withLineStart
          true).reading :=
      (reading_afterComment noComment quoteClosed unescaped remaining).symm
    _ = (((((first.withLineStart false).readCommentStart kind rest).withRest remaining).withComment
          .closed).withLineStart true).reading :=
      reading_congr
        (congrArg
          (fun body => ((body.withRest remaining).withComment .closed).withLineStart true)
          flushed).symm

/-- Where a comment starts in one script, and the line ends in the other one instead, both denote
the same and leave the same variables, as long as the second one goes on with what comes after the
comment. -/
theorem Alike.outcome_run_comment
    {follows : Text → Text → Prop} {closures : Closures} {first second : State}
    {mark : Char} {body : Text} {kind : CommentKind}
    (alike : Alike follows first second)
    (whole : first.wholeScript = true)
    (tidy : first.session.comment.Tidy)
    (unescaped : first.frame.previous ≠ some '\\')
    (text : first.session.rest = '/' :: mark :: body)
    (turn : (first.settle '/').turn '/' (mark :: body) = .commentStart kind)
    (otherText : second.session.rest = '\n' :: (Comment.opened kind).remaining body) :
    outcome (second.run closures) = outcome (first.run closures) := by
  have simulation := namingSimulation_alike follows
  obtain ⟨noComment, settled⟩ := settle_of_commentStart turn
  have settledAlike := simulation.settleEnd alike
  generalize remainingShape : (Comment.opened kind).remaining body = remaining at otherText
  -- The comment of the first script starts, and the line of the second one ends.
  let opened := (first.settleEnd.withLineStart false).readCommentStart kind (mark :: body)
  let ended := second.settleEnd.readLineEnd '\n' remaining
  have starts : Steps closures first opened := by
    refine steps_iff.mpr ⟨'/', mark :: body, text, ?_⟩
    unfold advance
    dsimp only
    rw [turn, settled]
    rfl
  have ends : Steps closures second ended := by
    refine steps_settledLineEnd closures ?_ otherText
    rw [simulation.commentOpen alike]
    exact noComment
  have sameStored : StoredAlike opened ended :=
    settledAlike.stored_commentStart kind (mark :: body) remaining
  have endedRest : ended.session.rest = remaining := rest_readLineEnd _ _ _
  have isOpen : opened.session.comment.isOpen = true := rfl
  have afterComment := reaches_afterComment closures isOpen
  have left : opened.session.comment.remaining opened.session.rest = remaining := remainingShape
  rw [left] at afterComment
  rw [starts.run_eq, ends.run_eq]
  rcases afterComment with closes | ⟨nothing, comment, cutOff⟩
  · have tidyThere : first.settleEnd.session.comment = .closed := by
      rw [comment_settleEnd]
      exact tidy noComment
    have unescapedThere : first.settleEnd.frame.previous ≠ some '\\' := by
      rw [previous_settleEnd]
      exact unescaped
    have quoteClosed : first.settleEnd.session.quote.isOpen = false := by
      rw [← settled]
      exact (contexts_closed_of_commentStart turn).2
    have sameReading :=
      settledAlike.reading_commentEnd tidyThere quoteClosed unescapedThere kind (mark :: body)
        remaining
    have same : Alike Eq (((opened.withRest remaining).withComment .closed).withLineStart true)
        ended :=
      ⟨endedRest.symm, sameReading, sameStored⟩
    have openedWhole : opened.wholeScript = true := starts.wholeScript_eq.trans whole
    obtain ⟨sameMapping, sameTable⟩ := same.run openedWhole closures
    rw [closes.run_eq]
    exact Prod.ext sameMapping.symm sameTable.symm
  · -- The text ends in the comment, where the line of the second script ended.
    have openedLexical := lexical_flush (first.settleEnd.withLineStart false)
    have endedLexical := lexical_readLineEnd second.settleEnd remaining
    have noName :=
      (congrArg (fun body => body.session.interpolation.form) openedLexical).trans
        (form_settleEnd first)
    have otherNoName :=
      (congrArg (fun body => body.session.interpolation.form) endedLexical).trans
        (form_settleEnd second)
    have empty := congrArg (fun body => body.frame.statement) openedLexical
    have otherEmpty := congrArg (fun body => body.frame.statement) endedLexical
    rw [outcome_run_of_reaches_end cutOff rfl noName empty,
      outcome_run_of_reaches_end .refl (endedRest.trans nothing) otherNoName otherEmpty]
    exact outcome_unwind_of_storedAlike sameStored

end State

end GradleScript
