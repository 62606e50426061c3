import GradleScript.Proofs.Block.Scanning
import GradleScript.Proofs.Block.Stored
import GradleScript.Proofs.Value.Written

namespace GradleScript

/-!
# Reading whole lines

Between two lines nothing is pending: no statement, no comment, no name and no literal.  A line of
text is read from such a place to one where its end may come, and the end stores the statement that
is left.  This module follows comments, keys with their delimiters, and blocks; what stands in a
block is left open.
-/

namespace State

/-- Whether a state stands before the first word of a line, with nothing pending. -/
structure AtLine (state : State) : Prop where
  calm : state.Calm
  statement : state.frame.statement = {}
  lineStart : state.frame.lineStart = true

/-- Whether a state stands where its line, or the text, may end. -/
structure LineDone (state : State) : Prop where
  name : state.session.interpolation.form = none
  quote : state.session.quote.isOpen = false
  comment :
    state.session.comment.isOpen = false ∨
      state.session.comment.kind = some .line ∧ state.frame.statement = {}

/-- The text may end before the first word of a line. -/
theorem AtLine.done
    {state : State}
    (atLine : state.AtLine) :
    state.LineDone :=
  ⟨atLine.calm.name, atLine.calm.quote, .inl atLine.calm.comment⟩

/-- Whether a line begins does not depend on what is left of the text. -/
theorem AtLine.withRest
    {state : State}
    (atLine : state.AtLine)
    (rest : Text) :
    (state.withRest rest).AtLine :=
  ⟨⟨atLine.calm.comment, atLine.calm.name, atLine.calm.quote⟩, atLine.statement, atLine.lineStart⟩

/-- A literal that has been closed leaves the state outside literals. -/
theorem Calm.withQuote
    {state : State}
    (calm : state.Calm)
    (quote : Quote)
    (quoteClosed : quote.isOpen = false) :
    (state.withQuote quote).Calm :=
  ⟨calm.comment, calm.name, quoteClosed⟩

/-- Whether a state is outside comments, names and literals depends on the contexts alone. -/
theorem Calm.of_contexts
    {first second : State}
    (calm : first.Calm)
    (same : second.session.contexts = first.session.contexts) :
    second.Calm := by
  have comments := congrArg (fun contexts => contexts.comment.isOpen) same
  have names := congrArg (fun contexts => contexts.interpolation.form) same
  have quotes := congrArg (fun contexts => contexts.quote.isOpen) same
  exact ⟨comments.trans calm.comment, names.trans calm.name, quotes.trans calm.quote⟩

/-- Outside comments, names and literals, a line may end. -/
theorem Calm.done
    {state : State}
    (calm : state.Calm) :
    state.LineDone :=
  ⟨calm.name, calm.quote, .inl calm.comment⟩

/-- Before the first word of a line there is no statement to end. -/
theorem AtLine.flush_eq
    {state : State}
    (atLine : state.AtLine) :
    state.flush = state :=
  flush_of_statement_eq atLine.statement

/-- Separators before the first word of a line leave everything pending as it is. -/
theorem AtLine.reaches_indentation
    (closures : Closures) {state : State}
    (atLine : state.AtLine)
    {gap rest : Text}
    (text : state.session.rest = gap ++ rest)
    (blanks : ∀ ch ∈ gap, ch = ' ' ∨ ch = '\t') :
    Reaches closures state (state.withRest rest) :=
  State.reaches_indentation closures atLine.calm atLine.lineStart text blanks

/-! ## The end of a line -/

/-- Outside comments and names a line end is read as one. -/
theorem steps_lineEnd
    (closures : Closures) {state : State} {rest : Text}
    (noComment : state.session.comment.isOpen = false)
    (noName : state.session.interpolation.form = none)
    (text : state.session.rest = '\n' :: rest) :
    Steps closures state (state.readLineEnd '\n' rest) := by
  have turnShape : state.turn '\n' rest = .lineEnd := by
    unfold State.turn
    simp [noComment, noName, Interpolation.isOpen]
  exact steps_of_turn text (settle_of_noName noName) turnShape rfl

/-- After a line end the next line begins. -/
theorem atLine_readLineEnd
    {state : State}
    (noComment : state.session.comment.isOpen = false)
    (noName : state.session.interpolation.form = none)
    (ch : Char) (rest : Text) :
    (state.readLineEnd ch rest).AtLine := by
  have flushed := lexical_flush (state.withRest rest)
  refine ⟨⟨?_, ?_, rfl⟩, ?_, rfl⟩
  · exact (congrArg (fun body => body.session.comment.isOpen) flushed).trans noComment
  · exact (form_flush (state.withRest rest)).trans noName
  · exact congrArg (fun body => body.frame.statement) flushed

/-- The end of a line takes one character. -/
theorem rest_readLineEnd
    (state : State) (ch : Char) (rest : Text) :
    (state.readLineEnd ch rest).session.rest = rest :=
  rest_flush (state.withRest rest)

/-- A line end stores the statement before it. -/
theorem stored_readLineEnd
    (state : State) (ch : Char) (rest : Text) :
    (state.readLineEnd ch rest).stored = state.flush.stored := by
  have sameStored : (state.withRest rest).stored = state.stored := rfl
  exact stored_flush_congr sameStored rfl

/-- The end of a line stores the statement on it, and the next line begins. -/
theorem LineDone.steps
    (closures : Closures) {state : State} {rest : Text}
    (done : state.LineDone)
    (text : state.session.rest = '\n' :: rest) :
    ∃ next,
      Steps closures state next ∧
        next.AtLine ∧ next.session.rest = rest ∧ next.stored = state.flush.stored := by
  rcases done.comment with commentClosed | ⟨lineComment, empty⟩
  · exact
      ⟨state.readLineEnd '\n' rest, steps_lineEnd closures commentClosed done.name text,
        atLine_readLineEnd commentClosed done.name '\n' rest, rest_readLineEnd state '\n' rest,
        stored_readLineEnd state '\n' rest⟩
  · have commentOpen : state.session.comment.isOpen = true := by
      simp [Comment.isOpen, lineComment]
    have turnShape : state.turn '\n' rest = .comment := by
      unfold State.turn
      simp [commentOpen]
    have heard : state.session.comment.hear ['\n'] = (true, Comment.closed) := by
      unfold Comment.hear
      simp [lineComment]
    refine ⟨((state.withRest rest).withComment Comment.closed).withLineStart true,
      steps_of_turn text (settle_of_noName done.name) turnShape ?_,
      ⟨⟨rfl, done.name, done.quote⟩, empty, rfl⟩, rfl, ?_⟩
    · simp only [take, readComment, heard, if_true]
    · rw [flush_of_statement_eq empty]
      rfl

/-! ## Comments -/

/-- A state inside a comment, with what has been heard of it, latest first. -/
def inComment (state : State) (kind : CommentKind) (rest heard : Text) : State :=
  (((state.withRest rest).withLineStart false).withComment ⟨some kind, heard⟩)

/-- Two characters at the beginning of a line start a comment. -/
theorem AtLine.steps_commentStart
    (closures : Closures) {state : State} {second : Char} {kind : CommentKind} {rest : Text}
    (atLine : state.AtLine)
    (text : state.session.rest = '/' :: second :: rest)
    (opener : commentOpener? '/' second = some kind) :
    Steps closures state (state.inComment kind rest []) := by
  have turnShape : state.turn '/' (second :: rest) = .commentStart kind := by
    have notWhitespace : isWhitespace '/' = false := by decide
    unfold State.turn
    simp [atLine.calm.comment, atLine.calm.name, atLine.calm.quote, Interpolation.isOpen,
      notWhitespace, commentAt?, opener]
  apply atLine.calm.steps text turnShape
  have flushed : (state.withLineStart false).flush = state.withLineStart false :=
    flush_of_statement_eq atLine.statement
  unfold take readCommentStart
  rw [flushed]
  rfl

/-- A character that does not end a comment is passed over. -/
theorem steps_comment
    (closures : Closures) {state : State} {kind : CommentKind} {ch : Char} {rest heard left : Text}
    (goesOn : Comment.hear ⟨some kind, heard⟩ [ch] = (false, ⟨some kind, left⟩)) :
    Steps closures (state.inComment kind (ch :: rest) heard) (state.inComment kind rest left) := by
  have commentOpen : (state.inComment kind (ch :: rest) heard).session.comment.isOpen = true := rfl
  have settled :
      (state.inComment kind (ch :: rest) heard).settle ch =
        state.inComment kind (ch :: rest) heard := by
    unfold settle
    simp [commentOpen]
  have turnShape : (state.inComment kind (ch :: rest) heard).turn ch rest = .comment := by
    unfold State.turn
    simp [commentOpen]
  have goesOnInComment :
      (state.inComment kind (ch :: rest) heard).session.comment.hear [ch] =
        (false, ⟨some kind, left⟩) :=
    goesOn
  apply steps_of_turn rfl settled turnShape
  simp only [take, readComment, goesOnInComment, Bool.false_eq_true, if_false]
  rfl

/-- A line comment is passed over up to the end of its line. -/
theorem reaches_lineComment
    (closures : Closures) (state : State)
    (content rest : Text)
    (oneLine : '\n' ∉ content) :
    Reaches closures (state.inComment .line (content ++ rest) [])
      (state.inComment .line rest []) := by
  induction content with
  | nil =>
      exact .refl
  | cons ch content inductionHypothesis =>
      have notLineEnd : ch ≠ '\n' := by
        rintro rfl
        exact oneLine List.mem_cons_self
      have goesOn :
          Comment.hear ⟨some .line, []⟩ [ch] = (false, ⟨some .line, []⟩) := by
        simp [Comment.hear, notLineEnd]
      exact Relation.ReflTransGen.head (steps_comment closures goesOn)
        (inductionHypothesis fun member => oneLine (List.mem_cons_of_mem ch member))

/-- A character completes the end mark of a block comment only as a slash after a star. -/
theorem hear_blockComment
    {ch : Char} {heard : Text}
    (goesOn : ch = '/' → heard.head? ≠ some '*') :
    Comment.hear ⟨some .block, heard⟩ [ch] = (false, ⟨some .block, ch :: heard⟩) := by
  have noEnd : Comment.hasEnd (ch :: heard.take 1) = false := by
    cases heard with
    | nil =>
        simp [Comment.hasEnd]
    | cons last heard =>
        by_cases isSlash : ch = '/'
        · have notStar : last ≠ '*' := by simpa using goesOn isSlash
          simp [Comment.hasEnd, notStar]
        · simp [Comment.hasEnd, isSlash]
  simp [Comment.hear, noEnd]

/-- A block comment is passed over up to its first end mark. -/
theorem reaches_blockComment
    (closures : Closures) (state : State)
    (content rest heard : Text)
    (noEnd : ¬['*', '/'] <:+: heard.reverse ++ content) :
    Reaches closures (state.inComment .block (content ++ rest) heard)
      (state.inComment .block rest (content.reverse ++ heard)) := by
  induction content generalizing heard with
  | nil =>
      exact .refl
  | cons ch content inductionHypothesis =>
      have goesOn : ch = '/' → heard.head? ≠ some '*' := by
        rintro rfl isStar
        obtain ⟨heard, rfl⟩ : ∃ before, heard = '*' :: before := by
          cases heard with
          | nil =>
              cases isStar
          | cons last before =>
              rw [List.head?_cons, Option.some.injEq] at isStar
              exact ⟨before, by rw [isStar]⟩
        exact noEnd ⟨heard.reverse, content, by simp⟩
      have first :
          Steps closures (state.inComment .block (ch :: content ++ rest) heard)
            (state.inComment .block (content ++ rest) (ch :: heard)) :=
        steps_comment closures (hear_blockComment goesOn)
      have later := inductionHypothesis (ch :: heard) (by simpa using noEnd)
      have shape : (ch :: content).reverse ++ heard = content.reverse ++ ch :: heard := by
        simp
      rw [shape]
      exact Relation.ReflTransGen.head first later

/-- The end mark of a block comment ends it, and a line may begin after it. -/
theorem reaches_blockCommentEnd
    (closures : Closures) (state : State)
    (rest heard : Text) :
    Reaches closures (state.inComment .block ('*' :: '/' :: rest) heard)
      (((state.withRest rest).withComment Comment.closed).withLineStart true) := by
  have star :
      Steps closures (state.inComment .block ('*' :: '/' :: rest) heard)
        (state.inComment .block ('/' :: rest) ('*' :: heard)) :=
    steps_comment closures (hear_blockComment fun isSlash => absurd isSlash (by decide))
  have slash :
      Steps closures (state.inComment .block ('/' :: rest) ('*' :: heard))
        (((state.withRest rest).withComment Comment.closed).withLineStart true) :=
    rfl
  exact (Relation.ReflTransGen.single star).tail slash

/-! ## Keys -/

/-- The part of a statement that has not begun is the first word that is added to it. -/
theorem part_append_empty
    (word : Text) :
    (({} : Statement).append word).part = word :=
  Statement.part_append {} word

/-- A plain word before a delimiter is the key of the statement. -/
theorem dispatchKey_of_word
    {state : State} {word : Text}
    (part : state.frame.statement.part = word)
    (notKeyword : isKeyword word = false) :
    state.dispatchKey = state.withStatement ⟨word, [], false⟩ := by
  unfold isKeyword at notKeyword
  rw [Bool.or_eq_false_iff] at notKeyword
  unfold dispatchKey
  simp only [part, notKeyword.1, notKeyword.2, Bool.false_eq_true, if_false]

/-- A declaring word before a delimiter makes the declared word the key of the statement. -/
theorem dispatchKey_of_declaration
    {state : State} {declaring word rest : Text}
    (part : state.frame.statement.part = declaring)
    (isDeclaring : isDeclarationWord declaring = true)
    (declared : readDeclaration state.session.rest = (word, rest))
    (notEmpty : word ≠ []) :
    state.dispatchKey = (state.withRest rest).withStatement ⟨word, [], false⟩ := by
  have named : word.isEmpty = false := by simpa using notEmpty
  unfold dispatchKey
  simp only [part, isDeclaring, declared, named, Bool.false_eq_true, if_true, if_false]

/-- The first word of a line is dispatched by the delimiter after it. -/
theorem AtLine.reaches_dispatch
    (closures : Closures) {state : State} {word rest : Text} {delimiter : Char}
    (atLine : state.AtLine)
    (text : state.session.rest = word ++ delimiter :: rest)
    (notEmpty : word ≠ [])
    (others : ∀ ch ∈ word, CharRole.of ch = .other)
    (isDelimiter : delimiter = ' ' ∨ delimiter = '\t' ∨ delimiter = '=') :
    Reaches closures state
      (state.inLine rest (({} : Statement).append word) (some delimiter)).dispatchKey := by
  obtain ⟨last, inKey⟩ :=
    reaches_firstWord closures atLine.calm text notEmpty others
  rw [atLine.statement] at inKey
  have notFresh : (({} : Statement).append word).isFresh = false := by
    simp [Statement.isFresh, Statement.append, notEmpty]
  have keyEnd :=
    steps_keyEnd closures
      (atLine.calm.inLine (delimiter :: rest) (({} : Statement).append word) last)
      rfl rfl isDelimiter rfl notFresh
  exact inKey.tail keyEnd

/-- A delimiter does not escape what follows it. -/
theorem notEscaping_of_delimiter
    {delimiter : Char}
    (isDelimiter : delimiter = ' ' ∨ delimiter = '\t' ∨ delimiter = '=') :
    some delimiter ≠ some '\\' := by
  rcases isDelimiter with rfl | rfl | rfl <;> decide

/-- A key that is no keyword is handed on by the delimiters after it. -/
theorem AtLine.reaches_key
    (closures : Closures) {state : State} {word gap rest : Text}
    (atLine : state.AtLine)
    (text : state.session.rest = word ++ gap ++ rest)
    (notEmpty : word ≠ [])
    (others : ∀ ch ∈ word, CharRole.of ch = .other)
    (notKeyword : isKeyword word = false)
    (gapNotEmpty : gap ≠ [])
    (delimiters : ∀ ch ∈ gap, ch = ' ' ∨ ch = '\t' ∨ ch = '=') :
    ∃ last,
      last ≠ some '\\' ∧
        Reaches closures state (state.inLine rest ⟨word, [], false⟩ last) := by
  cases gap with
  | nil =>
      exact (gapNotEmpty rfl).elim
  | cons delimiter gap =>
      have isDelimiter := delimiters delimiter List.mem_cons_self
      have textFromDelimiter : state.session.rest = word ++ delimiter :: (gap ++ rest) := by
        rw [text, List.append_assoc, List.cons_append]
      have dispatched :=
        atLine.reaches_dispatch closures textFromDelimiter notEmpty others isDelimiter
      rw [dispatchKey_of_word (part_append_empty word) notKeyword] at dispatched
      obtain ⟨last, lastNotEscaping, inGap⟩ :=
        reaches_delimiters closures atLine.calm gap rest
          (fun ch member => delimiters ch (List.mem_cons_of_mem delimiter member)) word
          (notEscaping_of_delimiter isDelimiter)
      exact ⟨last, lastNotEscaping, dispatched.trans inGap⟩

/-- A declaring word hands on the word before the equals sign as the key. -/
theorem AtLine.reaches_declaredKey
    (closures : Closures) {state : State}
    {declaring gap word before after rest : Text}
    (atLine : state.AtLine)
    (text :
      state.session.rest = declaring ++ gap ++ word ++ before ++ '=' :: after ++ rest)
    (declaringNotEmpty : declaring ≠ [])
    (declaringOthers : ∀ ch ∈ declaring, CharRole.of ch = .other)
    (isDeclaring : isDeclarationWord declaring = true)
    (gapNotEmpty : gap ≠ [])
    (gapBlanks : ∀ ch ∈ gap, ch = ' ' ∨ ch = '\t')
    (notEmpty : word ≠ [])
    (solid : ∀ ch ∈ word, isBlank ch = false ∧ isDeclarationChar ch = true)
    (blanksBefore : ∀ ch ∈ before, ch = ' ' ∨ ch = '\t')
    (blanksAfter : ∀ ch ∈ after, ch = ' ' ∨ ch = '\t') :
    ∃ last,
      last ≠ some '\\' ∧
        Reaches closures state (state.inLine rest ⟨word, [], false⟩ last) := by
  have declarationBlank {ch : Char} (blank : ch = ' ' ∨ ch = '\t') :
      isBlank ch = true ∧ isDeclarationChar ch = true := by
    rcases blank with rfl | rfl <;> decide
  cases gap with
  | nil =>
      exact (gapNotEmpty rfl).elim
  | cons delimiter gap =>
      have isDelimiter := delimiter_of_blank (gapBlanks delimiter List.mem_cons_self)
      have textFromDelimiter :
          state.session.rest =
            declaring ++ delimiter :: (gap ++ word ++ before ++ '=' :: (after ++ rest)) := by
        rw [text]
        simp
      have dispatched :=
        atLine.reaches_dispatch closures textFromDelimiter declaringNotEmpty
          declaringOthers isDelimiter
      have declared :
          readDeclaration (gap ++ word ++ before ++ '=' :: (after ++ rest)) =
            (word, '=' :: (after ++ rest)) :=
        readDeclaration_equals
          (fun ch member => declarationBlank (gapBlanks ch (List.mem_cons_of_mem delimiter member)))
          (fun ch member => declarationBlank (blanksBefore ch member)) solid notEmpty _
      rw [dispatchKey_of_declaration (part_append_empty declaring) isDeclaring declared notEmpty]
        at dispatched
      obtain ⟨last, lastNotEscaping, inGap⟩ :=
        reaches_delimiters closures atLine.calm ('=' :: after) rest
          (fun ch member => by
            rcases List.mem_cons.mp member with isEquals | inAfter
            · exact .inr (.inr isEquals)
            · exact delimiter_of_blank (blanksAfter ch inAfter))
          word (notEscaping_of_delimiter isDelimiter)
      exact ⟨last, lastNotEscaping, dispatched.trans inGap⟩

/-! ## Reading to the end of a line -/

/-- Whether reading on comes to the end of a line before the rest of the text, and what is then
stored. -/
def ReadsLine (closures : Closures) (state : State) (rest : Text) (result : State) : Prop :=
  ∃ done,
    Reaches closures state done ∧
      done.LineDone ∧ done.session.rest = rest ∧ done.flush.stored = result

/-- Whether reading on comes to the beginning of a line before the rest of the text, and what is
then stored. -/
def ReadsLines (closures : Closures) (state : State) (rest : Text) (result : State) : Prop :=
  ∃ next,
    Reaches closures state next ∧
      next.AtLine ∧ next.session.rest = rest ∧ next.stored = result

/-- A line is read from an earlier state, too. -/
theorem ReadsLine.after
    {closures : Closures} {state later result : State} {rest : Text}
    (reads : ReadsLine closures later rest result)
    (reaches : Reaches closures state later) :
    ReadsLine closures state rest result := by
  obtain ⟨done, laterReaches, properties⟩ := reads
  exact ⟨done, reaches.trans laterReaches, properties⟩

/-- The end of a line leads to the next one. -/
theorem ReadsLine.lineEnd
    {closures : Closures} {state result : State} {rest : Text}
    (reads : ReadsLine closures state ('\n' :: rest) result) :
    ReadsLines closures state rest result := by
  obtain ⟨done, reaches, lineDone, text, stored⟩ := reads
  obtain ⟨next, steps, atLine, nextText, nextStored⟩ := lineDone.steps closures text
  exact ⟨next, reaches.tail steps, atLine, nextText, nextStored.trans stored⟩

/-- Before the first word of a line nothing has to be read for the line to end. -/
theorem AtLine.readsLine
    (closures : Closures) {state : State}
    (atLine : state.AtLine) :
    ReadsLine closures state state.session.rest state.stored :=
  ⟨state, .refl, atLine.done, rfl, by rw [atLine.flush_eq]⟩

/-! ## Values -/

/-- The end of a line records what has been read of a value under its key. -/
theorem stored_flush_of_key
    (state : State) {key : Text} (heard : Text)
    (statement : state.frame.statement = ⟨key, heard, false⟩)
    (keyNotEmpty : key ≠ []) :
    state.flush.stored = state.stored.recordText key heard.reverse := by
  have keyed : key.isEmpty = false := by simpa using keyNotEmpty
  unfold flush
  simp only [statement, keyed, Bool.false_and, Bool.false_eq_true, if_false]
  exact stored_recordText state key heard.reverse

/-- The end of a line with nothing in it records nothing. -/
theorem stored_flush_of_fresh
    {state : State}
    (noKey : state.frame.statement.key = [])
    (fresh : state.frame.statement.heard = []) :
    state.flush.stored = state.stored := by
  unfold flush recordText
  simp only [noKey, Statement.isFresh, Statement.part, fresh]
  rfl

/-- A value that has been read up to the end of its line is recorded under its key. -/
theorem Calm.readsLine_of_value
    (closures : Closures) {state : State} {key : Text}
    (calm : state.Calm)
    (keyNotEmpty : key ≠ [])
    (value : Text)
    (valueNotEmpty : strip value ≠ [])
    (rest : Text) (last : Option Char) :
    ReadsLine closures (state.inLine rest ((⟨key, [], false⟩ : Statement).append value) last) rest
      (state.stored.record key (.ofScalar (trimQuotes (strip value)))) := by
  have flushed :=
    stored_flush_of_key (state.inLine rest ((⟨key, [], false⟩ : Statement).append value) last)
      (value.reverse ++ []) rfl keyNotEmpty
  rw [List.append_nil, List.reverse_reverse,
    recordText_of_notEmpty _ keyNotEmpty valueNotEmpty] at flushed
  exact ⟨_, .refl, (calm.inLine _ _ _).done, rfl, flushed⟩

/-- A quoted literal is recorded as its body. -/
theorem Calm.readsLine_literal
    (closures : Closures) {state : State} {mark : Char} {key body : Text}
    (calm : state.Calm)
    (keyNotEmpty : key ≠ [])
    (isMark : isQuote mark = true)
    (notEmpty : body ≠ [])
    (oneLine : '\n' ∉ body)
    (unbroken : mark ∉ body)
    (notEscaping : body.getLast? ≠ some '\\')
    (dollars : ∀ ch ∈ body, state.DollarIsPlain ch)
    (rest : Text) {previous : Option Char}
    (notEscaped : previous ≠ some '\\') :
    ReadsLine closures (state.inLine (mark :: body ++ mark :: rest) ⟨key, [], false⟩ previous) rest
      (state.stored.record key (.ofScalar body)) := by
  have stripped : strip (mark :: body ++ [mark]) = mark :: body ++ [mark] :=
    strip_literal isMark body
  have read :=
    reaches_literal closures calm isMark oneLine unbroken notEscaping dollars rest
      ⟨key, [], false⟩ notEscaped
  have recorded :=
    (calm.withQuote ⟨false, some mark⟩ rfl).readsLine_of_value closures keyNotEmpty
      (mark :: body ++ [mark]) (by rw [stripped]; exact List.cons_ne_nil _ _) rest (some mark)
  rw [stripped, trimQuotes_literal isMark notEmpty unbroken] at recorded
  exact recorded.after read

/-- A bare word is recorded as it stands. -/
theorem Calm.readsLine_word
    (closures : Closures) {state : State} {key word : Text}
    (calm : state.Calm)
    (keyNotEmpty : key ≠ [])
    (notEmpty : word ≠ [])
    (others : ∀ ch ∈ word, CharRole.of ch = .other)
    (solid : ∀ ch ∈ word, isBlank ch = false)
    (rest : Text) (previous : Option Char) :
    ReadsLine closures (state.inLine (word ++ rest) ⟨key, [], false⟩ previous) rest
      (state.stored.record key (.ofScalar word)) := by
  have stripped : strip word = word :=
    strip_eq_self (fun ch isHead => solid ch (List.mem_of_mem_head? isHead))
      (fun ch isLast => solid ch (List.mem_of_getLast? isLast))
  have untouched : trimQuotes word = word :=
    trimQuotes_of_head fun ch isHead =>
      isQuote_of_other (others ch (List.mem_of_mem_head? isHead))
  obtain ⟨last, read⟩ :=
    reaches_word closures calm word rest others ⟨key, [], false⟩ previous
  have recorded :=
    calm.readsLine_of_value closures keyNotEmpty word (by rw [stripped]; exact notEmpty) rest last
  rw [stripped, untouched] at recorded
  exact recorded.after read

/-- An array literal is recorded as the list of its items. -/
theorem Calm.readsLine_array
    (closures : Closures) {state : State} {content : Text}
    (calm : state.Calm)
    (unbroken : ']' ∉ content)
    (key rest : Text) (previous : Option Char) :
    ReadsLine closures
      (state.inLine ('[' :: content ++ ']' :: rest) ⟨key, [], false⟩ previous) rest
      (state.stored.record key (.list ((arrayItems content).map .text))) := by
  have calmInLine :=
    calm.inLine ('[' :: content ++ ']' :: rest) ⟨key, [], false⟩ previous
  have turnShape :
      (state.inLine ('[' :: content ++ ']' :: rest) ⟨key, [], false⟩ previous).turn '['
        (content ++ ']' :: rest) = .array := by
    rw [calmInLine.turn_eq _ (by decide) (fun _ => by decide) (by decide)
      (fun isDollar => absurd isDollar (by decide)) (by decide)]
    rfl
  have read := readArray_brackets unbroken rest
  have taken :
      (state.inLine ('[' :: content ++ ']' :: rest) ⟨key, [], false⟩ previous).take closures '['
        (content ++ ']' :: rest) .array =
        .running
          ((((state.inLine rest ⟨key, [], false⟩ previous).record key
            (.list ((arrayItems content).map .text))).withStatement ⟨[], [], false⟩).withPrevious
              none) := by
    unfold take readArrayValue
    simp only [List.cons_append] at read ⊢
    rw [read]
    rfl
  have calmRecorded :=
    (calm.inLine rest ⟨key, [], false⟩ previous).of_contexts
      (contexts_record _ key (.list ((arrayItems content).map .text)))
  refine ⟨_, .single (calmInLine.steps rfl turnShape taken),
    ⟨calmRecorded.name, calmRecorded.quote, .inl calmRecorded.comment⟩, rest_record _ _ _, ?_⟩
  rw [stored_flush_of_fresh rfl rfl]
  exact stored_record (state.inLine rest ⟨key, [], false⟩ previous) key _

/-! ## Blocks -/

/-- Outside every context a brace opens a block where the statement lets it. -/
theorem Calm.turn_openBlock
    {state : State} {statement : Statement}
    (calm : state.Calm)
    (turnShape : statement.turn '{' = .blockStart)
    (rest : Text) (last : Option Char) :
    (state.inLine ('{' :: rest) statement last).turn '{' rest = .blockStart := by
  rw [(calm.inLine ('{' :: rest) statement last).turn_eq _ (by decide) (fun _ => by decide)
    (by decide) (fun isDollar => absurd isDollar (by decide)) (by decide)]
  exact turnShape

/-- The brace that opens a block is the start of its body. -/
theorem Calm.steps_openBlock
    {closures : Closures} {state : State} {statement : Statement} {word : Text}
    (calm : state.Calm)
    (turnShape : statement.turn '{' = .blockStart)
    (key : (if statement.key.isEmpty then strip statement.part else statement.key) = word)
    (ordinary : closures.find? word = none)
    (rest : Text) (last : Option Char) :
    Steps closures (state.inLine ('{' :: rest) statement last)
      (((state.inLine rest {} none).withLineStart true).enterBlock word) := by
  have calmInLine := calm.inLine ('{' :: rest) statement last
  refine calmInLine.steps rfl (calm.turn_openBlock turnShape rest last)
    (congrArg Progress.running ?_)
  have keyInLine :
      (if ((state.inLine ('{' :: rest) statement last).withLineStart
            false).frame.statement.key.isEmpty then
          strip ((state.inLine ('{' :: rest) statement last).withLineStart
            false).frame.statement.part
        else
          ((state.inLine ('{' :: rest) statement last).withLineStart
            false).frame.statement.key) = word :=
    key
  unfold openBlock
  simp only [keyInLine, ordinary]
  rfl

/-- The brace after a key enters its block. -/
theorem AtLine.reaches_enterBlock
    {closures : Closures} {state : State} {word gap rest : Text}
    (atLine : state.AtLine)
    (text : state.session.rest = word ++ gap ++ '{' :: rest)
    (notEmpty : word ≠ [])
    (others : ∀ ch ∈ word, CharRole.of ch = .other)
    (solid : ∀ ch ∈ word, isBlank ch = false)
    (notKeyword : isKeyword word = false)
    (ordinary : closures.find? word = none)
    (blanks : ∀ ch ∈ gap, ch = ' ' ∨ ch = '\t') :
    Reaches closures state
      (((state.inLine rest {} none).withLineStart true).enterBlock word) := by
  by_cases noGap : gap = []
  · -- The brace stands right after the key, which is then the part that is being read.
    subst noGap
    rw [List.append_nil] at text
    obtain ⟨last, inKey⟩ :=
      reaches_firstWord closures atLine.calm text notEmpty others
    rw [atLine.statement] at inKey
    have stripped : strip word = word :=
      strip_eq_self (fun ch isHead => solid ch (List.mem_of_mem_head? isHead))
        (fun ch isLast => solid ch (List.mem_of_getLast? isLast))
    refine inKey.tail (atLine.calm.steps_openBlock rfl ?_ ordinary rest last)
    rw [part_append_empty, stripped]
    rfl
  · obtain ⟨last, _, afterKey⟩ :=
      atLine.reaches_key closures text notEmpty others notKeyword noGap
        fun ch member => delimiter_of_blank (blanks ch member)
    have keyed : word.isEmpty = false := by simpa using notEmpty
    refine afterKey.tail (atLine.calm.steps_openBlock ?_ ?_ ordinary rest last)
    · rfl
    · simp [keyed]

/-- A block that is entered stands at the beginning of a line, and stores what it is entered
with. -/
theorem AtLine.reaches_openBlock
    {closures : Closures} {state : State} {word gap rest : Text}
    (atLine : state.AtLine)
    (text : state.session.rest = word ++ gap ++ '{' :: rest)
    (notEmpty : word ≠ [])
    (others : ∀ ch ∈ word, CharRole.of ch = .other)
    (solid : ∀ ch ∈ word, isBlank ch = false)
    (notKeyword : isKeyword word = false)
    (ordinary : closures.find? word = none)
    (blanks : ∀ ch ∈ gap, ch = ' ' ∨ ch = '\t') :
    ∃ opened,
      Reaches closures state opened ∧
        opened.AtLine ∧ opened.session.rest = rest ∧
          opened.stored = state.stored.enterBlock word :=
  ⟨((state.inLine rest {} none).withLineStart true).enterBlock word,
    atLine.reaches_enterBlock text notEmpty others solid notKeyword ordinary blanks,
    ⟨⟨atLine.calm.comment, atLine.calm.name, atLine.calm.quote⟩, rfl, rfl⟩, rfl, rfl⟩

/-- The brace at the beginning of a line leaves the block it stands in. -/
theorem AtLine.steps_closeBlock
    (closures : Closures) {state before : State} {key rest : Text}
    (atLine : state.AtLine)
    (text : state.session.rest = '}' :: rest)
    (idle : before.frame.Idle)
    (keyNotEmpty : key ≠ [])
    (inBlock : state.stored.lexical = (before.enterBlock key).lexical) :
    ∃ left,
      Steps closures state left ∧
        left.AtLine ∧ left.session.rest = rest ∧ left.stored = state.stored.leaveBody := by
  obtain ⟨suspended, outer, around, opening, frameShape, _⟩ :=
    exists_around_of_lexical inBlock
  have aroundState : state.outer = suspended :: outer := around
  have suspendedIdle : suspended.frame.Idle :=
    ⟨(congrArg Frame.statement frameShape).trans idle.statement,
      (congrArg Frame.lineStart frameShape).trans idle.lineStart,
      (congrArg Frame.previous frameShape).trans idle.previous⟩
  have closing : Closing state '}' rest := by
    refine ⟨?_, .inl (by simp [aroundState])⟩
    rw [settle_of_noName atLine.calm.name,
      atLine.calm.turn_eq rest (by decide) (fun _ => by decide) (by decide)
      (fun isDollar => absurd isDollar (by decide)) (by decide), atLine.statement]
    rfl
  have closedShape : state.closedAt '}' rest = (state.withLineStart false).withRest rest := by
    unfold closedAt
    rw [settle_of_noName atLine.calm.name]
    exact flush_of_statement_eq atLine.statement
  have stepShape := step_of_closing closures text closing
  have aroundClosed : ((state.withLineStart false).withRest rest).outer = suspended :: outer :=
    aroundState
  rw [closedShape] at stepShape
  simp only [aroundClosed] at stepShape
  have resumedSession :
      (((state.withLineStart false).withRest rest).resume suspended outer).lexical.session =
        { state.session with
          rest := rest
          interpolation :=
            { state.session.interpolation with
              inDependencies := before.session.interpolation.inDependencies }
          journal := {} } := by
    rw [lexical_resume, opening]
    rfl
  have resumedFrame :
      (((state.withLineStart false).withRest rest).resume suspended outer).lexical.frame =
        { suspended.frame with entries := [], shared := [] } := by
    rw [lexical_resume]
    rfl
  refine ⟨_, stepShape, ⟨⟨?_, ?_, ?_⟩, ?_, ?_⟩, ?_, ?_⟩
  · exact (congrArg (fun session => session.comment.isOpen) resumedSession).trans
      atLine.calm.comment
  · exact (congrArg (fun session => session.interpolation.form) resumedSession).trans
      atLine.calm.name
  · exact (congrArg (fun session => session.quote.isOpen) resumedSession).trans
      atLine.calm.quote
  · exact (congrArg Frame.statement resumedFrame).trans suspendedIdle.statement
  · exact (congrArg Frame.lineStart resumedFrame).trans suspendedIdle.lineStart
  · exact congrArg Session.rest resumedSession
  · rw [stored_resume _ opening keyNotEmpty suspendedIdle]
    unfold leaveBody
    have aroundStored : state.stored.outer = suspended :: outer := around
    rw [aroundStored]
    rfl

/-- A block is read when its body is: it is entered, filled and left. -/
theorem AtLine.readsLine_block
    {closures : Closures} {state result : State} {word gap body closing rest : Text}
    (atLine : state.AtLine)
    (text : state.session.rest = word ++ gap ++ '{' :: '\n' :: body)
    (notEmpty : word ≠ [])
    (others : ∀ ch ∈ word, CharRole.of ch = .other)
    (solid : ∀ ch ∈ word, isBlank ch = false)
    (notKeyword : isKeyword word = false)
    (ordinary : closures.find? word = none)
    (gapBlanks : ∀ ch ∈ gap, ch = ' ' ∨ ch = '\t')
    (closingBlanks : ∀ ch ∈ closing, ch = ' ' ∨ ch = '\t')
    (inBlock : result.lexical = (state.stored.enterBlock word).lexical)
    (bodyReads :
      ∀ opened : State,
        opened.AtLine →
        opened.session.rest = body →
        opened.stored = state.stored.enterBlock word →
        ReadsLines closures opened (closing ++ '}' :: rest) result) :
    ReadsLine closures state rest result.leaveBody := by
  obtain ⟨opened, opens, openedAtLine, openedText, openedStored⟩ :=
    atLine.reaches_openBlock text notEmpty others solid notKeyword ordinary
      gapBlanks
  obtain ⟨first, lineEnd, firstAtLine, firstText, firstStored⟩ :=
    openedAtLine.done.steps closures openedText
  rw [openedAtLine.flush_eq, openedStored] at firstStored
  obtain ⟨last, reads, lastAtLine, lastText, lastStored⟩ :=
    bodyReads first firstAtLine firstText firstStored
  have indentation :=
    lastAtLine.reaches_indentation closures lastText closingBlanks
  have lastInBlock :
      (last.withRest ('}' :: rest)).stored.lexical = (state.stored.enterBlock word).lexical :=
    (congrArg lexical lastStored).trans inBlock
  obtain ⟨left, closes, leftAtLine, leftText, leftStored⟩ :=
    (lastAtLine.withRest ('}' :: rest)).steps_closeBlock closures rfl
      ⟨rfl, rfl, rfl⟩ notEmpty lastInBlock
  have whole : ReadsLine closures left rest (leaveBody last.stored) := by
    rw [← leftText]
    have read := leftAtLine.readsLine closures
    rw [leftStored] at read
    exact read
  rw [lastStored] at whole
  exact whole.after (((opens.tail lineEnd).trans reads).trans (indentation.tail closes))

/-- Where the last line of a text has been read in the outermost body, the run is over: it gives
what is stored. -/
theorem ReadsLine.run_eq
    {closures : Closures} {state result : State}
    (reads : ReadsLine closures state [] result)
    (outermost : result.outer = []) :
    (state.run closures).2 = result.frame.entries ∧
      (state.run closures).1.journal = result.session.journal := by
  obtain ⟨done, reaches, lineDone, text, stored⟩ := reads
  have settled : done.settleEnd = done := by
    unfold settleEnd
    rw [lineDone.name]
  have alone : done.flush.outer = [] :=
    (congrArg State.outer stored).trans outermost
  have finished : done.finish = (done.flush.session, done.flush.frame.entries) := by
    unfold finish unwind
    rw [settled]
    split
    · rfl
    · next suspended outer around =>
        rw [alone] at around
        cases around
  have closed :
      done.step closures = .closed done.flush.session done.flush.frame.entries := by
    unfold step
    rw [text, finished]
  rw [reaches.run_eq, run_eq_of_closed closed]
  exact ⟨congrArg (fun body => body.frame.entries) stored,
    congrArg (fun body => body.session.journal) stored⟩

end State

end GradleScript
