import GradleScript.Proofs.Simulation.Runs
import GradleScript.Proofs.Block.Contract

namespace GradleScript

/-!
# Keys are pieces of the text

Where no name is read, a statement is what stands in the text right before the place that the
reading has come to, and nothing else.  So every key, and with it what every open body is read
for, is a contiguous piece of the text.
-/

/-! ## Pieces of texts -/

/-- A text without the blanks around it is a piece of the text. -/
theorem isInfix_strip (text : Text) : strip text <:+: text := by
  have blanksAtEnd : stripEnd (text.dropWhile isBlank) <+: text.dropWhile isBlank := by
    apply List.reverse_suffix.mp
    unfold stripEnd
    rw [List.reverse_reverse]
    exact List.dropWhile_suffix _
  exact blanksAtEnd.isInfix.trans (List.dropWhile_suffix _).isInfix

/-- The last word of a text is a piece of the text. -/
theorem isInfix_lastWord (text : Text) : lastWord text <:+: text := by
  apply List.reverse_infix.mp
  unfold lastWord
  rw [List.reverse_reverse]
  exact (List.takeWhile_prefix _).isInfix.trans (List.dropWhile_suffix _).isInfix

/-- A declared name is a piece of the text after the declaring word. -/
theorem isInfix_readDeclaration (text : Text) : (readDeclaration text).1 <:+: text := by
  unfold readDeclaration
  split
  · exact List.nil_infix
  · exact (isInfix_lastWord _).trans (List.takeWhile_prefix _).isInfix

/-- A call is taken from its opening parenthesis on. -/
theorem isPrefix_taken (rest : Text) : parentheses.taken ('(' :: rest) <+: '(' :: rest := by
  have atBracket : dropWhitespace ('(' :: rest) = '(' :: rest := rfl
  unfold Brackets.taken takenFrom
  rw [atBracket]
  exact List.take_prefix _ _

/-- The name that an open body is read for. -/
def Opening.key : Opening → Text
  | .block key _ => key
  | .closure key _ => key

namespace State

/-! ## What a turn says of the state -/

/-- Nothing of a statement is left once it has ended. -/
theorem statement_flush
    (state : State) :
    state.flush.frame.statement = {} :=
  congrArg (fun body => body.frame.statement) (lexical_flush state)

/-- Only an open comment takes a character as its own. -/
theorem comment_isOpen_of_turn
    {state : State} {ch : Char} {rest : Text}
    (turn : state.turn ch rest = .comment) :
    state.session.comment.isOpen = true := by
  have notOfStatement : state.frame.statement.turn ch ≠ .comment := by
    unfold Statement.turn
    repeat' split
    all_goals simp
  unfold State.turn at turn
  dsimp only at turn
  repeat' split at turn
  all_goals simp_all

/-- No comment is open where a character is taken as anything else. -/
theorem comment_isOpen_eq_false
    {state : State} {ch : Char} {rest : Text}
    (turn : state.turn ch rest ≠ .comment) :
    state.session.comment.isOpen = false := by
  refine Bool.eq_false_iff.mpr fun isOpen => turn ?_
  unfold State.turn
  simp [isOpen]

/-- A character is indentation only at the beginning of a line. -/
theorem lineStart_of_turn
    {state : State} {ch : Char} {rest : Text}
    (turn : state.turn ch rest = .indentation) :
    state.frame.lineStart = true := by
  have notOfStatement : state.frame.statement.turn ch ≠ .indentation := by
    unfold Statement.turn
    repeat' split
    all_goals simp
  unfold State.turn at turn
  dsimp only at turn
  repeat' split at turn
  all_goals simp_all

/-- An array literal begins only where nothing of a statement has been read. -/
theorem isFresh_of_turn
    {state : State} {ch : Char} {rest : Text}
    (turn : state.turn ch rest = .array) :
    state.frame.statement.isFresh = true := by
  have ofStatement := statement_turn_eq turn (.inr rfl)
  unfold Statement.turn at ofStatement
  repeat' split at ofStatement
  all_goals simp_all

/-! ## The statement in the text -/

/-- Whether the statement of a state stands in a text right before what is left of it. -/
structure StandsBefore (text : Text) (state : State) : Prop where
  key : state.frame.statement.key <:+: text
  part : state.frame.statement.part ++ state.session.rest <:+ text
  pending :
    state.frame.lineStart = true ∨ state.session.comment.isOpen = true →
      state.frame.statement.part = []

namespace StandsBefore

variable {text : Text} {state next : State}

/-- A statement that has read no part of its own stands before any rest of the text. -/
theorem of_fresh
    (key : next.frame.statement.key <:+: text)
    (fresh : next.frame.statement.part = [])
    (rest : next.session.rest <:+ text) :
    next.StandsBefore text := by
  refine ⟨key, ?_, fun _ => fresh⟩
  rw [fresh]
  exact rest

/-- A statement that has not begun stands before any rest of the text. -/
theorem of_empty
    (empty : next.frame.statement = {})
    (rest : next.session.rest <:+ text) :
    next.StandsBefore text := by
  refine of_fresh ?_ ?_ rest
  · rw [empty]
    exact List.nil_infix
  · rw [empty]
    rfl

/-- A character that follows the part in the text may be added to the part. -/
theorem of_append
    {statement : Statement} {ch : Char} {rest : Text}
    (key : statement.key <:+: text)
    (extended : statement.part ++ [ch] ++ rest <:+ text)
    (statementShape : next.frame.statement = statement.append [ch])
    (restShape : next.session.rest = rest)
    (inLine : next.frame.lineStart = false)
    (commentClosed : next.session.comment.isOpen = false) :
    next.StandsBefore text := by
  refine ⟨?_, ?_, ?_⟩
  · rw [statementShape]
    exact key
  · rw [statementShape, restShape, Statement.part_append]
    exact extended
  · simp [inLine, commentClosed]

/-- What is left to be read is the end of the text. -/
theorem rest
    (stands : state.StandsBefore text) :
    state.session.rest <:+ text :=
  (List.suffix_append _ _).trans stands.part

/-- The part that is being read is a piece of the text. -/
theorem isInfix_part
    (stands : state.StandsBefore text) :
    state.frame.statement.part <:+: text :=
  (List.prefix_append _ _).isInfix.trans stands.part.isInfix

/-- The key that a block or a statement goes by is a piece of the text. -/
theorem isInfix_blockKey
    (stands : state.StandsBefore text) :
    (if state.frame.statement.key.isEmpty then strip state.frame.statement.part
      else state.frame.statement.key) <:+: text := by
  split
  · exact (isInfix_strip _).trans stands.isInfix_part
  · exact stands.key

end StandsBefore

/-- A call leaves no part, and no key but one that is a piece of the text. -/
theorem statement_readCall
    {text : Text} {state : State} {rest : Text}
    (before : state.frame.statement.part ++ '(' :: rest <:+ text) :
    (state.readCall ('(' :: rest)).frame.statement.key <:+: text ∧
      (state.readCall ('(' :: rest)).frame.statement.part = [] := by
  have kept : state.frame.statement.part ++ parentheses.taken ('(' :: rest) <:+: text :=
    (List.prefix_append_right_inj _ |>.mpr (isPrefix_taken rest)).isInfix.trans before.isInfix
  unfold readCall keepCall
  dsimp only
  split
  · exact ⟨List.nil_infix, rfl⟩
  · split
    · split
      · exact ⟨kept, rfl⟩
      · exact ⟨List.nil_infix, rfl⟩
    · exact ⟨List.nil_infix, rfl⟩

/-- A block is entered without a statement. -/
theorem statement_openBlock
    (closures : Closures) (state : State) (rest : Text) :
    (openBlock closures state rest).frame.statement = {} := by
  unfold openBlock
  dsimp only
  split
  · exact congrArg (fun body => body.frame.statement) (lexical_storeClosure _ _ _)
  · rfl
  · rfl
  · rfl

/-- After a closing brace the statement is that of a body that has waited between two statements. -/
theorem statement_closeBlock
    {state next : State} {rest : Text}
    (waits : state.Waits)
    (closed : state.closeBlock rest = .running next) :
    next.frame.statement = {} := by
  have flushedWaits : (state.withRest rest).flush.Waits := waits.of_surroundings (by simp)
  unfold closeBlock at closed
  dsimp only at closed
  split at closed
  · next suspended outer around =>
      cases closed
      rw [statement_resume]
      exact (flushedWaits suspended (by simp [around])).statement
  · split at closed
    · cases closed
      exact statement_flush (state.withRest rest)
    · cases closed

/-- A dispatched key leaves no part, and no key but one that is a piece of the text. -/
theorem statement_dispatchKey
    {text : Text} {state : State}
    (part : state.frame.statement.part <:+: text)
    (rest : state.session.rest <:+ text) :
    state.dispatchKey.frame.statement.key <:+: text ∧
      state.dispatchKey.frame.statement.part = [] := by
  have declared := (isInfix_readDeclaration state.session.rest).trans rest.isInfix
  unfold dispatchKey
  dsimp only
  split
  · split
    · exact ⟨List.nil_infix, rfl⟩
    · exact ⟨declared, rfl⟩
  · split
    · exact ⟨List.nil_infix, rfl⟩
    · exact ⟨part, rfl⟩

/-- The construct at a character that is no part of a name leaves a statement that stands in the
text where the reading has come to, if it stood there before. -/
theorem StandsBefore.take
    {closures : Closures} {text : Text} {state next : State} {ch : Char} {rest : Text}
    (stands : state.StandsBefore text)
    (waits : state.Waits)
    (place : state.session.rest = ch :: rest)
    (nameless : state.Nameless)
    (taken : state.take closures ch rest (state.turn ch rest) = .running next) :
    next.StandsBefore text := by
  have read : next.session.rest <:+ rest := by
    rw [← nameless.advance_eq] at taken
    exact rest_advance taken
  have restInText : rest <:+ text :=
    (List.suffix_cons ch rest).trans (place ▸ stands.rest)
  have nextRest : next.session.rest <:+ text := read.trans restInText
  have notOfName :=
    isOfName_turn nameless.noName
      (beginsName_of_dollarIsPlain (nameless.dollar ch rest place)) rest
  -- A character that is added to the part is the one that follows the part in the text.
  have extended : state.frame.statement.part ++ [ch] ++ rest <:+ text := by
    have part := stands.part
    rw [place] at part
    simpa using part
  cases turn : state.turn ch rest with
  | namePart | nameEnd | nameStart =>
      rw [turn] at notOfName
      cases notOfName
  | comment =>
      have fresh := stands.pending (.inr (comment_isOpen_of_turn turn))
      rw [turn] at taken
      cases taken
      refine .of_fresh ?_ ?_ nextRest
      · unfold readComment
        dsimp only
        split <;> exact stands.key
      · unfold readComment
        dsimp only
        split <;> exact fresh
  | lineEnd =>
      rw [turn] at taken
      cases taken
      exact .of_empty (statement_flush _) nextRest
  | indentation =>
      have fresh := stands.pending (.inl (lineStart_of_turn turn))
      rw [turn] at taken
      cases taken
      exact .of_fresh stands.key fresh nextRest
  | commentStart kind =>
      rw [turn] at taken
      cases taken
      exact .of_empty (statement_flush _) nextRest
  | quoted =>
      have commentClosed := comment_isOpen_eq_false (by rw [turn]; simp)
      rw [turn] at taken
      cases taken
      exact .of_append stands.key extended rfl rfl rfl commentClosed
  | call =>
      obtain rfl := eq_of_turn_call turn
      rw [turn] at taken
      cases taken
      have before : state.frame.statement.part ++ '(' :: rest <:+ text := by
        simpa using extended
      have read : (state.withLineStart false).frame.statement.part ++ '(' :: rest <:+ text := before
      have left := statement_readCall read
      exact .of_fresh left.1 left.2 nextRest
  | array =>
      have fresh := (state.frame.statement.isFresh_iff).mp (isFresh_of_turn turn)
      rw [turn] at taken
      cases taken
      exact .of_fresh List.nil_infix fresh nextRest
  | blockStart =>
      rw [turn] at taken
      cases taken
      exact .of_empty (statement_openBlock closures _ rest) nextRest
  | blockEnd =>
      rw [turn] at taken
      have inLineWaits : (state.withLineStart false).Waits := waits
      exact .of_empty (statement_closeBlock inLineWaits taken) nextRest
  | keyEnd =>
      rw [turn] at taken
      cases taken
      unfold readKeyEnd at nextRest ⊢
      dsimp only at nextRest ⊢
      split
      · next fresh =>
          exact .of_fresh stands.key ((state.frame.statement.isFresh_iff).mp fresh) restInText
      · let read := ((state.withLineStart false).withRest rest).withPrevious (some ch)
        have partInText : read.frame.statement.part <:+: text := stands.isInfix_part
        have left := statement_dispatchKey partInText restInText
        refine .of_fresh left.1 left.2 ?_
        exact (rest_dispatchKey _).trans restInText
  | plain =>
      have commentClosed := comment_isOpen_eq_false (by rw [turn]; simp)
      rw [turn] at taken
      cases taken
      unfold readPlain
      dsimp only
      split
      · next skipped =>
          have fresh := (Bool.and_eq_true_iff.mp skipped).1
          exact .of_fresh stands.key ((state.frame.statement.isFresh_iff).mp fresh) restInText
      · exact .of_append stands.key extended rfl rfl rfl commentClosed

/-! ## Everything that goes by a name -/

/-- What opens a block: nothing, or a body that is read for the block's key. -/
theorem openings_openBlock
    (closures : Closures) (state : State) (rest : Text) :
    (openBlock closures state rest).openings = state.openings ∨
      ∃ opening : Opening,
        (openBlock closures state rest).openings = opening :: state.openings ∧
          opening.key =
            (if state.frame.statement.key.isEmpty then strip state.frame.statement.part
              else state.frame.statement.key) := by
  unfold openBlock
  dsimp only
  split
  · left
    rw [openings_eq_surroundings, surroundings_storeClosure]
    exact (openings_eq_surroundings _).symm
  · exact .inr ⟨_, rfl, rfl⟩
  · exact .inr ⟨_, rfl, rfl⟩
  · exact .inr ⟨_, rfl, rfl⟩

/-- Leaving a body leaves no body around that was not there before. -/
theorem openings_closeBlock
    {state next : State} {rest : Text}
    (closed : state.closeBlock rest = .running next) :
    next.openings <:+ state.openings := by
  have flushedOpenings : (state.withRest rest).flush.openings = state.openings := by
    rw [openings_eq_surroundings, surroundings_flush]
    exact (openings_eq_surroundings _).symm
  unfold closeBlock at closed
  dsimp only at closed
  split at closed
  · next suspended outer around =>
      cases closed
      rw [← flushedOpenings, openings_resume]
      unfold openings
      rw [around]
      exact List.suffix_cons _ _
  · split at closed
    · cases closed
      exact flushedOpenings ▸ List.suffix_rfl
    · cases closed

/-- A construct that belongs neither to a comment nor to a name keeps both as they are. -/
theorem contexts_take
    {closures : Closures} {state next : State} {ch : Char} {rest : Text} {turn : Turn}
    (notComment : turn ≠ .comment)
    (noneStarts : ∀ kind, turn ≠ .commentStart kind)
    (notOfName : turn.isOfName = false)
    (taken : state.take closures ch rest turn = .running next) :
    next.session.comment = state.session.comment ∧
      next.session.interpolation.form = state.session.interpolation.form := by
  have of_contexts {other : State} (same : other.session.contexts = state.session.contexts) :
      other.session.comment = state.session.comment ∧
        other.session.interpolation.form = state.session.interpolation.form :=
    ⟨congrArg Contexts.comment same, congrArg (fun contexts => contexts.interpolation.form) same⟩
  cases turn with
  | comment =>
      exact (notComment rfl).elim
  | commentStart kind =>
      exact (noneStarts kind rfl).elim
  | namePart | nameEnd | nameStart =>
      cases notOfName
  | lineEnd =>
      cases taken
      -- A literal ends here, too, so the contexts change after the statement has been stored.
      have ended := of_contexts (contexts_flush (state.withRest rest))
      exact ended
  | indentation | quoted =>
      cases taken
      exact ⟨rfl, rfl⟩
  | call =>
      cases taken
      exact of_contexts (contexts_readCall (state.withLineStart false) (ch :: rest))
  | array =>
      cases taken
      exact of_contexts (contexts_readArrayValue (state.withLineStart false) (ch :: rest))
  | blockStart =>
      cases taken
      unfold openBlock
      dsimp only
      split
      · exact of_contexts (contexts_storeClosure _ _ _)
      · exact ⟨rfl, rfl⟩
      · exact ⟨rfl, rfl⟩
      · exact ⟨rfl, rfl⟩
  | blockEnd =>
      have flushed := of_contexts (contexts_flush ((state.withLineStart false).withRest rest))
      unfold take closeBlock at taken
      dsimp only at taken
      split at taken
      · cases taken
        exact ⟨(comment_resume _ _ _).trans flushed.1, (form_resume _ _ _).trans flushed.2⟩
      · split at taken
        · cases taken
          exact flushed
        · cases taken
  | keyEnd =>
      cases taken
      unfold readKeyEnd
      dsimp only
      split
      · exact ⟨rfl, rfl⟩
      · exact of_contexts (contexts_dispatchKey _)
  | plain =>
      cases taken
      unfold readPlain
      dsimp only
      split <;> exact ⟨rfl, rfl⟩

/-- A construct that is no part of a name begins none. -/
theorem form_take
    {closures : Closures} {state next : State} {ch : Char} {rest : Text} {turn : Turn}
    (notOfName : turn.isOfName = false)
    (taken : state.take closures ch rest turn = .running next) :
    next.session.interpolation.form = state.session.interpolation.form := by
  by_cases isComment : turn = .comment
  · subst isComment
    cases taken
    unfold readComment
    dsimp only
    split <;> rfl
  · by_cases starts : ∃ kind, turn = .commentStart kind
    · obtain ⟨kind, rfl⟩ := starts
      cases taken
      exact form_flush (state.withLineStart false)
    · exact (contexts_take isComment (not_exists.mp starts) notOfName taken).2

/-- A construct that is no comment leaves the comment state as it is. -/
theorem comment_take
    {closures : Closures} {state next : State} {ch : Char} {rest : Text} {turn : Turn}
    (notComment : turn ≠ .comment)
    (noneStarts : ∀ kind, turn ≠ .commentStart kind)
    (taken : state.take closures ch rest turn = .running next) :
    next.session.comment = state.session.comment := by
  cases turn with
  | namePart =>
      cases taken
      unfold readNamePart
      dsimp only
      split <;> rfl
  | nameEnd =>
      cases taken
      rfl
  | nameStart =>
      cases taken
      unfold readNameStart
      dsimp only
      split <;> rfl
  | _ =>
      exact (contexts_take notComment noneStarts rfl taken).1

/-- The bodies around wait between two statements, before and after every step. -/
theorem Steps.waits
    {closures : Closures} {state next : State}
    (steps : Steps closures state next)
    (waits : state.Waits) :
    next.Waits := by
  obtain ⟨ch, rest, _, movement⟩ := steps.movement
  cases movement with
  | within surroundings =>
      exact waits.of_surroundings surroundings.symm
  | into opening entering =>
      exact waits.entering entering
  | @outOf suspended outer closing around =>
      have closedWaits := waits.of_surroundings (surroundings_closedAt state ch rest).symm
      rw [waits_iff_surroundings, outer_surroundings_resume]
      intro waiting member
      obtain ⟨original, originalMember, rfl⟩ := List.mem_map.mp member
      have idle := closedWaits original (around ▸ List.mem_cons_of_mem suspended originalMember)
      exact ⟨idle.statement, idle.lineStart, idle.previous⟩

/-- Whether everything that a state knows by a name is written in a text: its statement, and what
the open bodies are read for. -/
structure WrittenIn (text : Text) (state : State) : Prop where
  stands : state.StandsBefore text
  keys : ∀ opening ∈ state.openings, opening.key <:+: text
  waits : state.Waits
  noName : state.session.interpolation.form = none

/-- One step goes by nothing that is not written in the text. -/
theorem WrittenIn.steps
    {closures : Closures} {text : Text} {state next : State}
    (written : state.WrittenIn text)
    (nameless : state.Nameless)
    (steps : Steps closures state next) :
    next.WrittenIn text := by
  have nextWaits : next.Waits := steps.waits written.waits
  obtain ⟨ch, rest, place, advanced⟩ := steps_iff.mp steps
  have notOfName :=
    isOfName_turn nameless.noName
      (beginsName_of_dollarIsPlain (nameless.dollar ch rest place)) rest
  rw [nameless.advance_eq] at advanced
  refine ⟨written.stands.take written.waits place nameless advanced, ?_, nextWaits,
    (form_take notOfName advanced).trans written.noName⟩
  by_cases isStart : state.turn ch rest = .blockStart
  · rw [isStart] at advanced
    cases advanced
    rcases openings_openBlock closures (state.withLineStart false) rest with
      same | ⟨opening, entered, key⟩
    · rw [same]
      exact written.keys
    · rw [entered]
      refine List.forall_mem_cons.mpr ⟨?_, written.keys⟩
      rw [key]
      exact written.stands.isInfix_blockKey
  · by_cases isEnd : state.turn ch rest = .blockEnd
    · rw [isEnd] at advanced
      intro opening member
      exact written.keys opening
        ((openings_closeBlock advanced).subset member)
    · rw [openings_eq_surroundings, surroundings_take isStart isEnd advanced,
        ← openings_eq_surroundings]
      exact written.keys

/-- Where no name is read along a run, everything stays written in the text. -/
theorem Reaches.writtenIn
    {closures : Closures} {text : Text} {state later : State}
    (reaches : Reaches closures state later)
    (written : state.WrittenIn text)
    (dollar :
      ∀ middle, Reaches closures state middle → middle.WrittenIn text →
        ∀ ch rest, middle.session.rest = ch :: rest → middle.DollarIsPlain ch) :
    later.WrittenIn text := by
  induction reaches with
  | refl =>
      exact written
  | tail reached steps inductionHypothesis =>
      exact inductionHypothesis.steps
        ⟨inductionHypothesis.noName, dollar _ reached inductionHypothesis⟩ steps

end State

end GradleScript
