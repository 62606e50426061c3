import GradleScript.Proofs.Scan.Returns
import GradleScript.Proofs.Simulation.Ending

namespace GradleScript

/-!
# Reading carriage returns

Before a line end, a carriage return is one more step that cannot be told afterwards: it is passed
over as a separator, or it is heard as a part of a comment, or it becomes the last character of a
literal or a name, and then the line end strips it off.  So the reading of a text with carriage
returns stutters at the line ends, and otherwise goes step by step with the reading of the text.
-/

namespace State

/-! ## What a line end makes of a state -/

/-- A state at the beginning of the next line, before the statement is stored. -/
def lineEnded (state : State) (rest : Text) : State :=
  ((((state.withRest rest).withStatement {}).withQuote .closed).withLineStart true).withPrevious
    (some '\n')

/-- The end of a line stores the statement, and is otherwise seen at the beginning of the next
line. -/
theorem lexical_readLineEnd
    (state : State) (rest : Text) :
    (state.readLineEnd '\n' rest).lexical = (state.lineEnded rest).lexical := by
  have flushed := lexical_flush (state.withRest rest)
  exact congrArg
    (fun body => ((body.withQuote .closed).withLineStart true).withPrevious (some '\n')) flushed

/-- What is stored under a key is the stripped text. -/
theorem recordText_congr
    {raw other : Text}
    (same : strip other = strip raw)
    (state : State) (key : Text) :
    state.recordText key other = state.recordText key raw := by
  unfold recordText
  rw [same]

/-- The end of a statement stores a stripped key, or a stripped value under a key. -/
theorem flush_eq
    (state : State) :
    let statement := state.frame.statement
    state.flush =
      (if statement.key.isEmpty then state.recordText (strip statement.part) []
        else state.recordText statement.key statement.part).withStatement {} := by
  unfold flush
  dsimp only
  by_cases noKey : state.frame.statement.key.isEmpty = true
  · by_cases fresh : state.frame.statement.isFresh = true
    · -- Nothing has been read, and an empty key is not stored either way.
      have empty := (Statement.isFresh_iff _).mp fresh
      have keyless : state.frame.statement.key = [] := List.isEmpty_iff.mp noKey
      rw [if_neg (by simp [fresh]), if_pos noKey, empty, keyless]
      rfl
    · rw [if_pos (by simp [noKey, fresh]), if_pos noKey]
  · rw [if_neg (by simp [noKey]), if_neg noKey]

/-- The same text is recorded in states that have stored the same. -/
theorem storedAlike_recordText
    {first second : State}
    (stored : StoredAlike first second)
    (sameMode : second.frame.mode = first.frame.mode)
    (key raw : Text) :
    StoredAlike (first.recordText key raw) (second.recordText key raw) := by
  unfold recordText
  rw [sameMode]
  dsimp only
  split
  · exact stored
  · exact storeSimulation_storedAlike.record stored key _

/-- Statements that are the same apart from blanks at the ends are stored alike. -/
theorem storedAlike_flush
    {first second : State}
    (stored : StoredAlike first second)
    (sameMode : second.frame.mode = first.frame.mode)
    (sameKey : second.frame.statement.key = first.frame.statement.key)
    (samePart : strip second.frame.statement.part = strip first.frame.statement.part) :
    StoredAlike first.flush second.flush := by
  rw [flush_eq first, flush_eq second, sameKey, samePart]
  split
  · exact storedAlike_recordText stored sameMode _ _
  · rw [recordText_congr samePart]
    exact storedAlike_recordText stored sameMode _ _

/-- Whether a line end makes two states the same, as far as they can be told apart. -/
structure SameAtLineEnd (first second : State) : Prop where
  lineEnded : ∀ rest, second.lineEnded rest = first.lineEnded rest
  key : second.frame.statement.key = first.frame.statement.key
  part : strip second.frame.statement.part = strip first.frame.statement.part

/-- Two states that a line end makes the same are alike behind it. -/
theorem SameAtLineEnd.alike
    {first second : State}
    (same : SameAtLineEnd first second)
    (rest : Text) :
    Alike Eq (first.readLineEnd '\n' rest) (second.readLineEnd '\n' rest) := by
  have sameEnd := same.lineEnded rest
  have stored : StoredAlike (first.withRest rest) (second.withRest rest) :=
    congrArg (fun body => body.storage) sameEnd
  have sameMode : second.frame.mode = first.frame.mode :=
    congrArg (fun body => body.frame.mode) sameEnd
  refine ⟨?_, ?_, ?_⟩
  · rw [rest_readLineEnd, rest_readLineEnd]
  · apply reading_congr
    rw [lexical_readLineEnd, lexical_readLineEnd, sameEnd]
  · have flushed : StoredAlike (first.withRest rest).flush (second.withRest rest).flush :=
      storedAlike_flush stored sameMode same.key same.part
    exact flushed

/-! ## A carriage return before a line end -/

/-- A carriage return at the end of a text is stripped. -/
theorem strip_return
    (text : Text) :
    strip (text ++ ['\r']) = strip text := by
  have isBlankReturn : isBlank '\r' = true := by decide
  by_cases blank : ∀ ch ∈ text, isBlank ch = true
  · have nothing : text.dropWhile isBlank = [] := List.dropWhile_eq_nil_iff.mpr blank
    have stillNothing : (text ++ ['\r']).dropWhile isBlank = [] := by
      apply List.dropWhile_eq_nil_iff.mpr
      intro ch member
      rcases List.mem_append.mp member with inText | isReturn
      · exact blank ch inText
      · rw [List.mem_singleton.mp isReturn]
        exact isBlankReturn
    unfold strip
    rw [nothing, stillNothing]
  · have visible : text.dropWhile isBlank ≠ [] := fun nothing =>
      blank (List.dropWhile_eq_nil_iff.mp nothing)
    unfold strip stripEnd
    rw [List.dropWhile_append, if_neg (by simpa using visible), List.reverse_append,
      List.reverse_singleton, List.singleton_append, List.dropWhile_cons_of_pos isBlankReturn]

/-- A carriage return at the end of the statement is stripped off by the line end. -/
theorem sameAtLineEnd_append
    (state : State) :
    SameAtLineEnd state (state.append ['\r']) :=
  ⟨fun _ => rfl, rfl, by
    have longer : (state.append ['\r']).frame.statement.part =
        state.frame.statement.part ++ ['\r'] :=
      Statement.part_append _ _
    rw [longer, strip_return]⟩

/-- Outside comments, a line end ends a name and then the statement. -/
theorem steps_settledLineEnd
    (closures : Closures) {state : State} {rest : Text}
    (noComment : state.session.comment.isOpen = false)
    (text : state.session.rest = '\n' :: rest) :
    Steps closures state (state.settleEnd.readLineEnd '\n' rest) := by
  have noCommentAfter : state.settleEnd.session.comment.isOpen = false := by
    rw [comment_settleEnd]
    exact noComment
  have settledText : state.settleEnd.session.rest = '\n' :: rest := by
    rw [rest_settleEnd, text]
  have settledSteps :=
    steps_lineEnd closures noCommentAfter (form_settleEnd state) settledText
  exact (step_settleEnd closures noComment text).symm.trans settledSteps

/-- Whether a state stands before a line end that leads from it and from another one to states that
are alike. -/
structure JoinsAtLineEnd (closures : Closures) (rest : Text) (first second : State) : Prop where
  text : second.session.rest = '\n' :: rest
  alike :
    ∀ {next other},
      Steps closures (first.withRest ('\n' :: rest)) next → Steps closures second other →
        Alike Eq next other

/-- Outside comments, states that a line end makes the same are joined by it. -/
theorem joinsAtLineEnd_of_same
    {closures : Closures} {first second : State} {rest : Text}
    (text : second.session.rest = '\n' :: rest)
    (noComment : first.session.comment.isOpen = false)
    (sameComment : second.session.comment = first.session.comment)
    (same : SameAtLineEnd (first.withRest ('\n' :: rest)).settleEnd second.settleEnd) :
    JoinsAtLineEnd closures rest first second where
  text := text
  alike {next other} steps otherSteps := by
    have expected : Steps closures (first.withRest ('\n' :: rest)) _ :=
      steps_settledLineEnd closures noComment rfl
    have otherExpected : Steps closures second _ :=
      steps_settledLineEnd closures (sameComment ▸ noComment) text
    rw [steps_rightUnique closures steps expected,
      steps_rightUnique closures otherSteps otherExpected]
    exact same.alike rest

/-- Outside comments and names, a carriage return is passed over, or becomes the last character of
the statement. -/
theorem exists_steps_return_of_noName
    (closures : Closures) {state : State} {rest : Text}
    (noComment : state.session.comment.isOpen = false)
    (noName : state.session.interpolation.form = none)
    (text : state.session.rest = '\r' :: '\n' :: rest) :
    ∃ after, Steps closures state after ∧ JoinsAtLineEnd closures rest state after := by
  have settled : state.settle '\r' = state := settle_of_noName noName
  have noneStarts : commentAt? ('\r' :: '\n' :: rest) = none := rfl
  have noName' : (state.withRest ('\n' :: rest)).settleEnd = state.withRest ('\n' :: rest) := by
    unfold settleEnd
    have stillNone : (state.withRest ('\n' :: rest)).session.interpolation.form = none := noName
    rw [stillNone]
  have joins {after : State}
      (afterText : after.session.rest = '\n' :: rest)
      (sameSession : after.session.comment = state.session.comment)
      (afterNoName : after.session.interpolation.form = none)
      (same : SameAtLineEnd (state.withRest ('\n' :: rest)) after) :
      JoinsAtLineEnd closures rest state after := by
    have afterSettled : after.settleEnd = after := by
      unfold settleEnd
      rw [afterNoName]
    refine joinsAtLineEnd_of_same afterText noComment sameSession ?_
    rw [noName', afterSettled]
    exact same
  by_cases lineStart : state.frame.lineStart = true
  · have turnShape : state.turn '\r' ('\n' :: rest) = .indentation := by
      have separates : isWhitespace '\r' = true := rfl
      unfold State.turn
      simp [noComment, noName, Interpolation.isOpen, lineStart, separates]
    exact ⟨_, steps_of_turn text settled turnShape rfl,
      joins rfl rfl noName ⟨fun _ => rfl, rfl, rfl⟩⟩
  · by_cases quoteOpen : state.session.quote.isOpen = true
    · have turnShape : state.turn '\r' ('\n' :: rest) = .quoted := by
        unfold State.turn
        simp [noComment, noName, Interpolation.isOpen, lineStart, quoteOpen]
      have appended := sameAtLineEnd_append (state.withRest ('\n' :: rest))
      exact ⟨_, steps_of_turn text settled turnShape rfl,
        joins rfl rfl noName ⟨fun _ => rfl, appended.key, appended.part⟩⟩
    · have turnShape : state.turn '\r' ('\n' :: rest) = .plain := by
        have notQuote : isQuote '\r' = false := rfl
        have noDelimiter : isDelimiter '\r' = false := rfl
        unfold State.turn Statement.turn
        simp [noComment, noName, Interpolation.isOpen, lineStart, quoteOpen, noneStarts, notQuote,
          noDelimiter]
      refine ⟨_, steps_of_turn text settled turnShape rfl, ?_⟩
      unfold readPlain
      dsimp only
      split
      · exact joins rfl rfl noName ⟨fun _ => rfl, rfl, rfl⟩
      · have appended := sameAtLineEnd_append (state.withRest ('\n' :: rest))
        exact joins rfl rfl noName ⟨fun _ => rfl, appended.key, appended.part⟩

/-- In a comment, every character is heard as a part of it. -/
theorem steps_readComment
    (closures : Closures) {state : State} {ch : Char} {rest : Text}
    (isOpen : state.session.comment.isOpen = true)
    (text : state.session.rest = ch :: rest) :
    Steps closures state (state.readComment ch rest) := by
  have settled : state.settle ch = state := by
    unfold settle
    rw [if_pos isOpen]
  have turnShape : state.turn ch rest = .comment := by
    unfold State.turn
    dsimp only
    rw [if_pos isOpen]
  exact steps_of_turn text settled turnShape rfl

/-- A comment that goes on is of the same kind. -/
theorem kind_hear_of_goesOn
    {comment : Comment} {ch : Char}
    (goesOn : (comment.hear [ch]).1 = false) :
    (comment.hear [ch]).2.kind = comment.kind := by
  unfold Comment.hear at goesOn ⊢
  split at goesOn
  · split at goesOn
    · cases goesOn
    · next notEnd =>
        rw [if_neg notEnd]
  · split at goesOn
    · cases goesOn
    · next notEnd =>
        rw [if_neg notEnd]

/-- A comment that goes on is still being read. -/
theorem isOpen_hear_of_goesOn
    {comment : Comment} {ch : Char}
    (isOpen : comment.isOpen = true)
    (goesOn : (comment.hear [ch]).1 = false) :
    (comment.hear [ch]).2.isOpen = true := by
  unfold Comment.isOpen
  rw [kind_hear_of_goesOn goesOn]
  exact isOpen

/-- In a comment, a carriage return is heard, and forgotten at the line end. -/
theorem exists_steps_return_of_comment
    (closures : Closures) {state : State} {rest : Text}
    (isOpen : state.session.comment.isOpen = true)
    (text : state.session.rest = '\r' :: '\n' :: rest) :
    ∃ after, Steps closures state after ∧ JoinsAtLineEnd closures rest state after := by
  obtain ⟨goesOn, sameEnd, sameRecent⟩ := state.session.comment.hear_return
  have heard :
      state.readComment '\r' ('\n' :: rest) =
        (state.withRest ('\n' :: rest)).withComment (state.session.comment.hear ['\r']).2 := by
    unfold readComment
    dsimp only
    rw [goesOn]
    rfl
  have stillOpen : (state.session.comment.hear ['\r']).2.isOpen = true :=
    isOpen_hear_of_goesOn isOpen goesOn
  refine ⟨_, steps_readComment closures isOpen text, ?_, ?_⟩
  · rw [heard]
    rfl
  · intro next other steps otherSteps
    rw [heard] at otherSteps
    rw [steps_rightUnique closures steps (steps_readComment closures isOpen rfl),
      steps_rightUnique closures otherSteps (steps_readComment closures stillOpen rfl)]
    unfold readComment
    dsimp only [withRest, withComment] at sameEnd sameRecent ⊢
    rw [sameEnd]
    have recents (body : State) :
        (body.withComment ((state.session.comment.hear ['\r']).2.hear ['\n']).2).reading =
          (body.withComment (state.session.comment.hear ['\n']).2).reading := by
      have heardRecent (comment : Comment) :
          (body.withComment comment).reading = body.reading.withComment comment.recent :=
        rfl
      rw [heardRecent, heardRecent, sameRecent]
    split
    · exact ⟨rfl, recents ((state.withRest rest).withLineStart true), rfl⟩
    · exact ⟨rfl, recents (state.withRest rest), rfl⟩

/-- A carriage return ends a bare name, as the line end would. -/
theorem exists_steps_return_of_bareName
    (closures : Closures) {state : State} {rest : Text}
    (noComment : state.session.comment.isOpen = false)
    (isBare : state.session.interpolation.form = some .bare)
    (text : state.session.rest = '\r' :: '\n' :: rest) :
    ∃ after, Steps closures state after ∧ JoinsAtLineEnd closures rest state after := by
  have splicedText : state.spliceName.session.rest = '\r' :: '\n' :: rest := text
  have splicedNoComment : state.spliceName.session.comment.isOpen = false := noComment
  obtain ⟨after, steps, joins⟩ :=
    exists_steps_return_of_noName closures splicedNoComment rfl splicedText
  have settled : state.settle '\r' = state.spliceName := by
    have ends : endsBareName '\r' = true := rfl
    unfold settle
    simp [noComment, isBare, ends]
  have splicedSettled : state.spliceName.settle '\r' = state.spliceName :=
    settle_of_noName rfl
  have sameStep : state.spliceName.step closures = state.step closures := by
    unfold step
    rw [splicedText, text]
    unfold advance
    dsimp only
    rw [settled, splicedSettled]
  have settledEnd :
      (state.withRest ('\n' :: rest)).settleEnd = state.spliceName.withRest ('\n' :: rest) := by
    have stillBare :
        (state.withRest ('\n' :: rest)).session.interpolation.form = some .bare :=
      isBare
    unfold settleEnd
    rw [stillBare]
    rfl
  have sameLineEnd :
      (state.spliceName.withRest ('\n' :: rest)).step closures =
        (state.withRest ('\n' :: rest)).step closures := by
    rw [← settledEnd]
    exact step_settleEnd closures noComment rfl
  refine ⟨after, sameStep.symm.trans steps, joins.text, ?_⟩
  intro next other nextSteps otherSteps
  exact joins.alike (sameLineEnd.trans nextSteps) otherSteps

/-- A name without a value leaves what is written of it in the statement. -/
theorem part_restoreName
    (state : State) :
    state.restoreName.frame.statement.part =
      state.frame.statement.part ++ state.session.interpolation.writtenSoFar :=
  Statement.part_append _ _

/-- A carriage return becomes a part of a braced name, which the line end gives up. -/
theorem exists_steps_return_of_bracedName
    (closures : Closures) {state : State} {rest : Text}
    (noComment : state.session.comment.isOpen = false)
    (isBraced : state.session.interpolation.form = some .braced)
    (text : state.session.rest = '\r' :: '\n' :: rest) :
    ∃ after, Steps closures state after ∧ JoinsAtLineEnd closures rest state after := by
  have settled : state.settle '\r' = state := by
    unfold settle
    simp [noComment, isBraced]
  have turnShape : state.turn '\r' ('\n' :: rest) = .namePart := by
    unfold State.turn
    simp [noComment, isBraced, Interpolation.isOpen]
  have inBraces : state.session.interpolation.isBraced = true := by
    unfold Interpolation.isBraced
    rw [isBraced]
    rfl
  let before := state.withRest ('\n' :: rest)
  let after := before.withInterpolation (state.session.interpolation.extend ['\r'])
  have named : state.readNamePart '\r' ('\n' :: rest) = after := by
    unfold readNamePart
    dsimp only
    rw [if_pos inBraces]
  have restored {body : State} (stillBraced : body.session.interpolation.form = some .braced) :
      body.settleEnd = body.restoreName := by
    unfold settleEnd
    rw [stillBraced]
  have longer :
      after.session.interpolation.writtenSoFar =
        before.session.interpolation.writtenSoFar ++ ['\r'] := by
    have stillInBraces : after.session.interpolation.isBraced = true := inBraces
    have wasInBraces : before.session.interpolation.isBraced = true := inBraces
    unfold Interpolation.writtenSoFar
    rw [if_pos stillInBraces, if_pos wasInBraces]
    exact congrArg (fun name => '$' :: '{' :: name) (Interpolation.name_extend _ _)
  have sameAtEnd : SameAtLineEnd before.restoreName after.restoreName := by
    refine ⟨fun _ => rfl, rfl, ?_⟩
    calc
      strip after.restoreName.frame.statement.part =
          strip (before.restoreName.frame.statement.part ++ ['\r']) := by
        rw [part_restoreName, part_restoreName, longer, List.append_assoc]
        rfl
      _ = strip before.restoreName.frame.statement.part :=
        strip_return _
  have steps : Steps closures state after :=
    steps_of_turn text settled turnShape (congrArg Progress.running named)
  refine ⟨after, steps, joinsAtLineEnd_of_same rfl noComment rfl ?_⟩
  have beforeEnd : before.settleEnd = before.restoreName := restored isBraced
  have afterEnd : after.settleEnd = after.restoreName := restored isBraced
  rw [afterEnd]
  exact beforeEnd ▸ sameAtEnd

/-- A carriage return before a line end is one more step, and then the line end makes the states the
same. -/
theorem exists_steps_return
    (closures : Closures) {state : State} {rest : Text}
    (text : state.session.rest = '\r' :: '\n' :: rest) :
    ∃ after, Steps closures state after ∧ JoinsAtLineEnd closures rest state after := by
  by_cases isOpen : state.session.comment.isOpen = true
  · exact exists_steps_return_of_comment closures isOpen text
  · rw [Bool.not_eq_true] at isOpen
    cases form : state.session.interpolation.form with
    | none =>
        exact exists_steps_return_of_noName closures isOpen form text
    | some nameForm =>
        cases nameForm with
        | bare =>
            exact exists_steps_return_of_bareName closures isOpen form text
        | braced =>
            exact exists_steps_return_of_bracedName closures isOpen form text

/-! ## The reading of a text with carriage returns -/

/-- Whether what is kept of the construct at the front of a text ends on its line: a call that
becomes a key, and an array literal. -/
def KeepsLine
    (closures : Closures)
    (frame : Frame)
    (text : Text) :
    Turn → Prop
  | .call =>
      frame.KeepsCall → '\n' ∉ parentheses.taken text
  | .array =>
      ']' ∈ text.tail.takeWhile fun ch => ch != '\n'
  | .blockStart =>
      closures.find? frame.statement.blockKey ≠ some .array
  | _ =>
      True

/-- What ends on its line is read alike with carriage returns and without. -/
theorem readsAlike_withReturns
    {closures : Closures} {state : State} {ch : Char} {rest : Text}
    (place : Returned (ch :: rest) (ch :: withReturns rest))
    (keeps : KeepsLine closures state.frame (ch :: rest) (state.turn ch rest)) :
    GradleScript.ReadsAlike Returned closures state.frame (ch :: rest) (ch :: withReturns rest)
      (state.turn ch rest) := by
  have restReturned : Returned rest (withReturns rest) := .whole rest
  cases turn : state.turn ch rest with
  | commentStart kind =>
      have starts : commentAt? (ch :: rest) = some kind := commentAt?_of_turn turn
      cases rest with
      | nil =>
          cases starts
      | cons second body =>
          have notLineEnd : second ≠ '\n' := by
            rintro rfl
            have noneStarts : commentOpener? ch '\n' = none :=
              commentOpener?_ne_some ch (by decide) (by decide)
            cases noneStarts.symm.trans starts
          rw [withReturns_cons notLineEnd]
          exact .whole body
  | nameStart =>
      refine ⟨restReturned, restReturned.head?_iff (by decide) (by decide), ?_⟩
      intro isBrace
      obtain ⟨name, rfl⟩ := List.head?_eq_some_iff.mp isBrace
      rw [withReturns_cons (by decide)]
      exact .whole name
  | call =>
      obtain rfl := eq_of_turn_call turn
      rw [turn] at keeps
      refine ⟨fun _ => place.afterConditional, ?_, fun _ _ => ?_⟩
      · intro keepsCall
        obtain ⟨sameCall, leftReturned⟩ := taken_withReturns (keeps keepsCall)
        exact ⟨sameCall, leftReturned, leftReturned.head?_iff (by decide) (by decide)⟩
      · rw [Brackets.after_returned Brackets.visible_parentheses place]
        exact .whole _
  | array =>
      obtain rfl := eq_of_turn_array turn
      rw [turn] at keeps
      exact readArray_withReturns keeps
  | blockStart =>
      rw [turn] at keeps
      exact ⟨restReturned, fun isArray => (keeps isArray).elim⟩
  | keyEnd =>
      exact
        ⟨restReturned, fun _ => restReturned.readDeclaration,
          fun _ => restReturned.afterConditional⟩
  | _ =>
      exact restReturned

/-- States that are alike stay so where the text of the second one is read from a state that is
alike to it. -/
theorem Alike.trans
    {follows : Text → Text → Prop} {first second third : State}
    (alike : Alike follows first second)
    (same : Alike Eq second third) :
    Alike follows first third := by
  refine ⟨?_, same.reading.trans alike.reading, same.stored.trans alike.stored⟩
  rw [← same.rest]
  exact alike.rest

/-- A step of a script is one or two steps of the script with carriage returns. -/
theorem Alike.exists_reaches_of_steps
    {closures : Closures} {first next second : State}
    (alike : Alike Returned first second)
    (otherWhole : second.wholeScript = true)
    (keeps :
      ∀ ch rest,
        first.session.rest = ch :: rest →
          KeepsLine closures (first.settle ch).frame (ch :: rest) ((first.settle ch).turn ch rest))
    (steps : Steps closures first next) :
    ∃ other, Reaches closures second other ∧ Alike Returned next other := by
  have simulation := namingSimulation_alike Returned
  obtain ⟨ch, rest, text, _⟩ := steps_iff.mp steps
  -- Where the second text begins with the same character, both read the same construct.
  have lockstep {other otherNext : State}
      (stillAlike : Alike Returned first other)
      (otherText : other.session.rest = ch :: withReturns rest)
      (otherSteps : Steps closures other otherNext) :
      Alike Returned next otherNext := by
    have place := stillAlike.rest
    rw [text, otherText] at place
    exact simulation.steps_of_readsAlike stillAlike
      ⟨text, otherText, simulation.turn_settle_eq stillAlike (commentAt?_withReturns ch rest),
        readsAlike_withReturns place (keeps ch rest text)⟩
      steps otherSteps
  have goesOn {other : State}
      (whole : other.wholeScript = true)
      (otherText : other.session.rest = ch :: withReturns rest) :
      ∃ otherNext, Steps closures other otherNext :=
    exists_steps closures whole (otherText ▸ List.cons_ne_nil ch _)
  have place := alike.rest
  rw [text] at place
  by_cases isLineEnd : ch = '\n'
  · subst isLineEnd
    generalize otherText : second.session.rest = otherRest at place
    cases place with
    | lineEnd =>
        obtain ⟨other, otherSteps⟩ := goesOn otherWhole otherText
        exact ⟨other, .single otherSteps, lockstep alike otherText otherSteps⟩
    | whole =>
        obtain ⟨after, returnSteps, joins⟩ := exists_steps_return closures otherText
        have withoutReturn : Alike Returned first (second.withRest ('\n' :: withReturns rest)) := by
          refine ⟨?_, alike.reading, alike.stored⟩
          rw [text]
          exact .lineEnd rest
        obtain ⟨expected, expectedSteps⟩ :
            ∃ expected,
              Steps closures (second.withRest ('\n' :: withReturns rest)) expected :=
          goesOn otherWhole rfl
        have afterWhole : after.wholeScript = true := returnSteps.wholeScript_eq.trans otherWhole
        obtain ⟨other, otherSteps⟩ := goesOn afterWhole joins.text
        have expectedAlike := lockstep withoutReturn rfl expectedSteps
        exact
          ⟨other, (Relation.ReflTransGen.single returnSteps).tail otherSteps,
            expectedAlike.trans (joins.alike expectedSteps otherSteps)⟩
  · have otherText : second.session.rest = ch :: withReturns rest := by
      generalize second.session.rest = otherRest at place
      cases place with
      | lineEnd =>
          exact (isLineEnd rfl).elim
      | whole =>
          exact withReturns_cons isLineEnd rest
    obtain ⟨other, otherSteps⟩ := goesOn otherWhole otherText
    exact ⟨other, .single otherSteps, lockstep alike otherText otherSteps⟩

/-- Carriage returns before the line ends of a text, of which every kept part ends on its line,
change nothing. -/
theorem Alike.outcome_run_withReturns
    {closures : Closures} {first second : State}
    (alike : Alike Returned first second)
    (whole : first.wholeScript = true)
    (otherWhole : second.wholeScript = true)
    (keeps :
      ∀ state ch rest,
        Reaches closures first state → state.session.rest = ch :: rest →
          KeepsLine closures (state.settle ch).frame (ch :: rest)
            ((state.settle ch).turn ch rest)) :
    outcome (second.run closures) = outcome (first.run closures) := by
  have simulation := namingSimulation_alike Returned
  obtain ⟨last, reaches, atEnd⟩ := exists_reaches_end closures whole
  obtain ⟨otherLast, otherReaches, lastAlike⟩ :
      ∃ otherLast, Reaches closures second otherLast ∧ Alike Returned last otherLast := by
    clear atEnd
    induction reaches with
    | refl =>
        exact ⟨second, .refl, alike⟩
    | tail reached steps inductionHypothesis =>
        obtain ⟨other, otherReached, stillAlike⟩ := inductionHypothesis
        obtain ⟨otherNext, otherReaches, nextAlike⟩ :=
          stillAlike.exists_reaches_of_steps (otherReached.wholeScript_eq.trans otherWhole)
            (fun ch rest => keeps _ ch rest reached) steps
        exact ⟨otherNext, otherReached.trans otherReaches, nextAlike⟩
  have otherAtEnd : otherLast.session.rest = [] := by
    have place := lastAlike.rest
    rw [atEnd] at place
    generalize otherLast.session.rest = otherRest at place
    cases place
    rfl
  have flushed := simulation.flush (simulation.settleEnd lastAlike)
  rw [run_eq_of_reaches_end reaches atEnd, run_eq_of_reaches_end otherReaches otherAtEnd]
  exact outcome_unwind_of_storedAlike flushed.stored

end State

end GradleScript
