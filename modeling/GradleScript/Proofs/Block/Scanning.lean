import GradleScript.Proofs.Block.Bodies

namespace GradleScript

/-!
# Reading the parts of a statement

Inside a line, the reading of a statement changes little: the text that is left, the statement, and
the character before.  This module follows it through words, separators, quoted literals and ends of
lines, each from a state that is described in full to another one.
-/

/-! ## Classes of characters -/

/-- A character of a class is none of the characters outside it. -/
theorem ne_of_holds
    {holds : Char → Bool} {ch special : Char}
    (inside : holds ch = true)
    (outside : holds special = false) :
    ch ≠ special := by
  rintro rfl
  rw [inside] at outside
  contradiction

/-- A character without a role separates nothing and begins nothing. -/
theorem CharRole.ne_of_other
    {ch special : Char}
    (other : CharRole.of ch = .other)
    (isSpecial : CharRole.of special ≠ .other) :
    ch ≠ special := by
  rintro rfl
  exact isSpecial other

/-- A character without a role of its own is no whitespace. -/
theorem isWhitespace_of_other
    {ch : Char}
    (other : CharRole.of ch = .other) :
    isWhitespace ch = false := by
  simp [isWhitespace, other]

/-- A character without a role of its own is no quote. -/
theorem isQuote_of_other
    {ch : Char}
    (other : CharRole.of ch = .other) :
    isQuote ch = false := by
  simp [isQuote, other]

/-- A character without a role of its own ends no word. -/
theorem isDelimiter_of_other
    {ch : Char}
    (other : CharRole.of ch = .other) :
    isDelimiter ch = false := by
  have notSpace : ch ≠ ' ' := CharRole.ne_of_other other (by decide)
  have notTab : ch ≠ '\t' := CharRole.ne_of_other other (by decide)
  have notEquals : ch ≠ '=' := CharRole.ne_of_other other (by decide)
  simp [isDelimiter, notSpace, notTab, notEquals]

/-- A comment begins with a slash. -/
theorem commentAt?_of_ne_slash
    {ch : Char}
    (notSlash : ch ≠ '/')
    (rest : Text) :
    commentAt? (ch :: rest) = none := by
  cases rest with
  | nil =>
      rfl
  | cons next rest =>
      unfold commentAt? commentOpener?
      split <;> simp_all

/-- Two pieces are added to a statement one after the other as they are together. -/
theorem Statement.append_append
    (statement : Statement) (first second : Text) :
    (statement.append first).append second = statement.append (first ++ second) := by
  simp [Statement.append]

namespace State

/-- Whether a state is outside comments, names and quoted literals. -/
structure Calm (state : State) : Prop where
  comment : state.session.comment.isOpen = false
  name : state.session.interpolation.form = none
  quote : state.session.quote.isOpen = false

/-- A state inside a line, with what is left of it, the statement, and the character before. -/
def inLine
    (state : State) (rest : Text) (statement : Statement) (previous : Option Char) : State :=
  (((state.withRest rest).withStatement statement).withLineStart false).withPrevious previous

/-- Going on in a line stays outside comments, names and literals. -/
theorem Calm.inLine
    {state : State}
    (calm : state.Calm)
    (rest : Text) (statement : Statement) (previous : Option Char) :
    (state.inLine rest statement previous).Calm :=
  ⟨calm.comment, calm.name, calm.quote⟩

/-- There is nothing to settle where no name is being read. -/
theorem settle_of_noName
    {state : State} {ch : Char}
    (noName : state.session.interpolation.form = none) :
    state.settle ch = state := by
  unfold settle
  simp [noName]

/-- The character that ends a name ends no comment. -/
theorem comment_settle
    (state : State) (ch : Char) :
    (state.settle ch).session.comment = state.session.comment := by
  unfold settle
  split
  · rfl
  · split
    · rfl
    · split <;> rfl
    · split <;> rfl

/-- The end of the text, where it ends a name, ends no comment. -/
theorem comment_settleEnd
    (state : State) :
    state.settleEnd.session.comment = state.session.comment := by
  unfold settleEnd
  split <;> rfl

/-- The character that ends a name without braces is not yet the one before the next. -/
theorem previous_settle
    (state : State) (ch : Char) :
    (state.settle ch).frame.previous = state.frame.previous := by
  unfold settle
  split
  · rfl
  · split
    · rfl
    · split <;> rfl
    · split <;> rfl

/-- The end of the text leaves the character before it. -/
theorem previous_settleEnd
    (state : State) :
    state.settleEnd.frame.previous = state.frame.previous := by
  unfold settleEnd
  split <;> rfl

/-- Whether a dollar sign that is read is a character like any other. -/
def DollarIsPlain (state : State) (ch : Char) : Prop :=
  ch = '$' → state.session.interpolation.allowed = false

/-- In a calm state the statement decides what a character is read as, unless it ends a line, stands
before the first word of a line, or begins a comment, a name or a literal. -/
theorem Calm.turn_eq
    {state : State} {ch : Char}
    (calm : state.Calm)
    (rest : Text)
    (notLineEnd : ch ≠ '\n')
    (notIndentation : state.frame.lineStart = true → isWhitespace ch = false)
    (notSlash : ch ≠ '/')
    (dollar : state.DollarIsPlain ch)
    (notQuote : isQuote ch = false) :
    state.turn ch rest = state.frame.statement.turn ch := by
  unfold State.turn
  have noIndentation : (state.frame.lineStart && isWhitespace ch) = false := by
    cases lineStart : state.frame.lineStart with
    | false =>
        rfl
    | true =>
        simp [notIndentation lineStart]
  have noName :
      (ch == '$' && state.session.interpolation.allowed && state.frame.previous != some '\\') =
        false := by
    by_cases isDollar : ch = '$'
    · simp [dollar isDollar]
    · simp [isDollar]
  simp [calm.comment, calm.quote, calm.name, Interpolation.isOpen, notLineEnd, noIndentation,
    commentAt?_of_ne_slash notSlash rest, noName, notQuote]

/-- Where no context is settled, a construct is read as its turn says. -/
theorem steps_of_turn
    {closures : Closures} {state next : State} {ch : Char} {rest : Text} {turn : Turn}
    (text : state.session.rest = ch :: rest)
    (settled : state.settle ch = state)
    (turnShape : state.turn ch rest = turn)
    (taken : state.take closures ch rest turn = .running next) :
    Steps closures state next := by
  unfold Steps step
  rw [text]
  dsimp only
  unfold advance
  dsimp only
  rw [settled, turnShape, taken]

/-- Outside comments and names a character is taken as its turn says. -/
theorem Calm.steps
    {closures : Closures} {state next : State} {ch : Char} {rest : Text} {turn : Turn}
    (calm : state.Calm)
    (text : state.session.rest = ch :: rest)
    (turnShape : state.turn ch rest = turn)
    (taken : state.take closures ch rest turn = .running next) :
    Steps closures state next :=
  steps_of_turn text (settle_of_noName calm.name) turnShape taken

/-! ## Words and separators -/

/-- A character without a role becomes part of the statement. -/
theorem steps_other
    (closures : Closures) {state : State} {ch : Char} {rest : Text}
    (calm : state.Calm)
    (text : state.session.rest = ch :: rest)
    (other : CharRole.of ch = .other) :
    Steps closures state
      (state.inLine rest (state.frame.statement.append [ch]) (some ch)) := by
  have notDelimiter := isDelimiter_of_other other
  have notParenthesis : ch ≠ '(' := CharRole.ne_of_other other (by decide)
  have notBracket : ch ≠ '[' := CharRole.ne_of_other other (by decide)
  have notOpening : ch ≠ '{' := CharRole.ne_of_other other (by decide)
  have notClosing : ch ≠ '}' := CharRole.ne_of_other other (by decide)
  have notReturn : ch ≠ '\r' := CharRole.ne_of_other other (by decide)
  have turnShape : state.turn ch rest = .plain := by
    rw [calm.turn_eq rest (CharRole.ne_of_other other (by decide))
      (fun _ => isWhitespace_of_other other) (CharRole.ne_of_other other (by decide))
      (fun isDollar => absurd isDollar (CharRole.ne_of_other other (by decide)))
      (isQuote_of_other other)]
    simp [Statement.turn, notParenthesis, notBracket, notOpening, notClosing, notDelimiter]
  apply calm.steps text turnShape
  simp only [take, readPlain, notDelimiter, Bool.false_or, Progress.running.injEq]
  have kept :
      (((state.withLineStart false).frame.statement.isFresh && ch == '\r') = true) = False := by
    simp [notReturn]
  rw [if_neg (by rw [kept]; exact not_false)]
  rfl

/-- A word becomes part of the statement. -/
theorem reaches_word
    (closures : Closures) {state : State}
    (calm : state.Calm)
    (word rest : Text)
    (others : ∀ ch ∈ word, CharRole.of ch = .other)
    (statement : Statement) (previous : Option Char) :
    ∃ last,
      Reaches closures (state.inLine (word ++ rest) statement previous)
        (state.inLine rest (statement.append word) last) := by
  induction word generalizing statement previous with
  | nil =>
      exact ⟨previous, .refl⟩
  | cons ch word inductionHypothesis =>
      have first : Steps closures (state.inLine (ch :: word ++ rest) statement previous)
          (state.inLine (word ++ rest) (statement.append [ch]) (some ch)) :=
        steps_other closures (calm.inLine _ _ _) rfl (others ch List.mem_cons_self)
      obtain ⟨last, later⟩ :=
        inductionHypothesis (fun other member => others other (List.mem_cons_of_mem ch member))
          (statement.append [ch]) (some ch)
      rw [Statement.append_append] at later
      exact ⟨last, Relation.ReflTransGen.head first later⟩

/-- The first word of a line becomes part of the statement. -/
theorem reaches_firstWord
    (closures : Closures) {state : State}
    (calm : state.Calm)
    {word rest : Text}
    (text : state.session.rest = word ++ rest)
    (notEmpty : word ≠ [])
    (others : ∀ ch ∈ word, CharRole.of ch = .other) :
    ∃ last,
      Reaches closures state (state.inLine rest (state.frame.statement.append word) last) := by
  cases word with
  | nil =>
      exact (notEmpty rfl).elim
  | cons ch word =>
      have first := steps_other closures calm text (others ch List.mem_cons_self)
      obtain ⟨last, later⟩ :=
        reaches_word closures calm word rest
          (fun other member => others other (List.mem_cons_of_mem ch member))
          (state.frame.statement.append [ch]) (some ch)
      rw [Statement.append_append] at later
      exact ⟨last, Relation.ReflTransGen.head first later⟩

/-- A separator before the first word of a line is passed over. -/
theorem steps_indentation
    (closures : Closures) {state : State} {ch : Char} {rest : Text}
    (calm : state.Calm)
    (lineStart : state.frame.lineStart = true)
    (text : state.session.rest = ch :: rest)
    (blank : ch = ' ' ∨ ch = '\t') :
    Steps closures state (state.withRest rest) := by
  refine calm.steps text (?_ : state.turn ch rest = .indentation) rfl
  unfold State.turn
  rcases blank with rfl | rfl <;>
    simp [calm.comment, calm.name, Interpolation.isOpen, lineStart, isWhitespace, CharRole.of]

/-- The separators before the first word of a line are passed over. -/
theorem reaches_indentation
    (closures : Closures) {state : State}
    (calm : state.Calm)
    (lineStart : state.frame.lineStart = true)
    {gap rest : Text}
    (text : state.session.rest = gap ++ rest)
    (blanks : ∀ ch ∈ gap, ch = ' ' ∨ ch = '\t') :
    Reaches closures state (state.withRest rest) := by
  induction gap generalizing state with
  | nil =>
      have shape : state.withRest rest = state := by
        rw [List.nil_append] at text
        unfold withRest
        rw [← text]
      rw [shape]
      exact .refl
  | cons ch gap inductionHypothesis =>
      have first : Steps closures state (state.withRest (gap ++ rest)) :=
        steps_indentation closures calm lineStart text (blanks ch List.mem_cons_self)
      have calmAfter : (state.withRest (gap ++ rest)).Calm :=
        ⟨calm.comment, calm.name, calm.quote⟩
      have later :=
        inductionHypothesis calmAfter lineStart rfl
          (fun other member => blanks other (List.mem_cons_of_mem ch member))
      exact Relation.ReflTransGen.head first later

/-- A delimiter before a value is passed over. -/
theorem steps_delimiter
    (closures : Closures) {state : State} {ch : Char} {rest : Text}
    (calm : state.Calm)
    (inLine : state.frame.lineStart = false)
    (text : state.session.rest = ch :: rest)
    (delimiter : ch = ' ' ∨ ch = '\t' ∨ ch = '=')
    (inValue : state.frame.statement.inKey = false)
    (fresh : state.frame.statement.isFresh = true) :
    Steps closures state (state.inLine rest state.frame.statement (some ch)) := by
  have turnShape : state.turn ch rest = .plain := by
    rcases delimiter with rfl | rfl | rfl <;>
      rw [calm.turn_eq rest (by decide) (by simp [inLine]) (by decide)
        (fun isDollar => absurd isDollar (by decide)) (by decide)] <;>
      simp [Statement.turn, inValue]
  apply calm.steps text turnShape
  have freshAfter : (state.withLineStart false).frame.statement.isFresh = true := fresh
  rcases delimiter with rfl | rfl | rfl <;>
    simp [take, readPlain, freshAfter, isDelimiter] <;> rfl

/-- A blank ends a word as an equals sign does. -/
theorem delimiter_of_blank
    {ch : Char}
    (blank : ch = ' ' ∨ ch = '\t') :
    ch = ' ' ∨ ch = '\t' ∨ ch = '=' := by
  rcases blank with isSpace | isTab
  · exact .inl isSpace
  · exact .inr (.inl isTab)

/-- The delimiters before a value are passed over. -/
theorem reaches_delimiters
    (closures : Closures) {state : State}
    (calm : state.Calm)
    (gap rest : Text)
    (delimiters : ∀ ch ∈ gap, ch = ' ' ∨ ch = '\t' ∨ ch = '=')
    (key : Text) {previous : Option Char}
    (notEscaped : previous ≠ some '\\') :
    ∃ last,
      last ≠ some '\\' ∧
        Reaches closures (state.inLine (gap ++ rest) ⟨key, [], false⟩ previous)
          (state.inLine rest ⟨key, [], false⟩ last) := by
  induction gap generalizing previous with
  | nil =>
      exact ⟨previous, notEscaped, .refl⟩
  | cons ch gap inductionHypothesis =>
      have delimiter := delimiters ch List.mem_cons_self
      have first : Steps closures (state.inLine (ch :: gap ++ rest) ⟨key, [], false⟩ previous)
          (state.inLine (gap ++ rest) ⟨key, [], false⟩ (some ch)) :=
        steps_delimiter closures (calm.inLine _ _ _) rfl rfl delimiter rfl rfl
      have chNotEscaping : some ch ≠ some '\\' := by
        rcases delimiter with rfl | rfl | rfl <;> decide
      obtain ⟨last, lastNotEscaping, later⟩ :=
        inductionHypothesis
          (fun other member => delimiters other (List.mem_cons_of_mem ch member)) chNotEscaping
      exact ⟨last, lastNotEscaping, Relation.ReflTransGen.head first later⟩

/-- The delimiter after a key hands the key on. -/
theorem steps_keyEnd
    (closures : Closures) {state : State} {ch : Char} {rest : Text}
    (calm : state.Calm)
    (inLine : state.frame.lineStart = false)
    (text : state.session.rest = ch :: rest)
    (delimiter : ch = ' ' ∨ ch = '\t' ∨ ch = '=')
    (inKey : state.frame.statement.inKey = true)
    (notFresh : state.frame.statement.isFresh = false) :
    Steps closures state
      (state.inLine rest state.frame.statement (some ch)).dispatchKey := by
  have turnShape : state.turn ch rest = .keyEnd := by
    rcases delimiter with rfl | rfl | rfl <;>
      rw [calm.turn_eq rest (by decide) (by simp [inLine]) (by decide)
        (fun isDollar => absurd isDollar (by decide)) (by decide)] <;>
      simp [Statement.turn, inKey, isDelimiter]
  apply calm.steps text turnShape
  have notFreshAfter : (state.withLineStart false).frame.statement.isFresh = false := notFresh
  simp only [take, readKeyEnd, notFreshAfter, Bool.false_eq_true, if_false]
  rfl

/-! ## Quoted literals -/

/-- A state inside a quoted literal of a line. -/
def inLiteral
    (state : State) (mark : Char)
    (rest : Text) (statement : Statement) (previous : Option Char) : State :=
  (state.inLine rest statement previous).withQuote ⟨true, some mark⟩

/-- A quote, and every character of a literal, becomes part of the statement. -/
theorem steps_quoted
    (closures : Closures) (state : State) {ch : Char} {rest : Text} {quote : Quote}
    (commentClosed : state.session.comment.isOpen = false)
    (noName : state.session.interpolation.form = none)
    (inLine : state.frame.lineStart = false)
    (text : state.session.rest = ch :: rest)
    (notLineEnd : ch ≠ '\n')
    (dollar : state.DollarIsPlain ch)
    (literal : state.session.quote.isOpen = true ∨ isQuote ch = true)
    (quoteAfter : state.session.quote.next ch state.frame.previous = quote) :
    Steps closures state
      ((state.inLine rest (state.frame.statement.append [ch]) (some ch)).withQuote quote) := by
  have noComment :
      (if state.session.quote.isOpen then none else commentAt? (ch :: rest)) = none := by
    rcases literal with isOpen | isQuote
    · simp [isOpen]
    · have notSlash : ch ≠ '/' := ne_of_holds isQuote (by decide)
      simp [commentAt?_of_ne_slash notSlash]
  have notName :
      (ch == '$' && state.session.interpolation.allowed && state.frame.previous != some '\\') =
        false := by
    by_cases isDollar : ch = '$'
    · simp [dollar isDollar]
    · simp [isDollar]
  have turnShape : state.turn ch rest = .quoted := by
    unfold State.turn
    simp only [commentClosed, noName, Interpolation.isOpen, Option.isSome_none, inLine,
      Bool.false_eq_true, if_false, Bool.false_and, noComment, notName]
    have isLiteral : (state.session.quote.isOpen || isQuote ch) = true := by
      rcases literal with isOpen | isQuote
      · simp [isOpen]
      · simp [isQuote]
    simp [notLineEnd, isLiteral]
  rw [← quoteAfter]
  exact steps_of_turn text (settle_of_noName noName) turnShape rfl

/-- The characters of a literal become part of the statement. -/
theorem reaches_literalBody
    (closures : Closures) {state : State} {mark : Char}
    (calm : state.Calm)
    (body rest : Text)
    (oneLine : '\n' ∉ body)
    (unbroken : mark ∉ body)
    (dollars : ∀ ch ∈ body, state.DollarIsPlain ch)
    (statement : Statement) (previous : Option Char) :
    Reaches closures (state.inLiteral mark (body ++ rest) statement previous)
      (state.inLiteral mark rest (statement.append body) (body.getLast?.or previous)) := by
  induction body generalizing statement previous with
  | nil =>
      exact .refl
  | cons ch body inductionHypothesis =>
      have notMark : ch ≠ mark := by
        rintro rfl
        exact unbroken List.mem_cons_self
      have notLineEnd : ch ≠ '\n' := by
        rintro rfl
        exact oneLine List.mem_cons_self
      have staysOpen : (⟨true, some mark⟩ : Quote).next ch previous = ⟨true, some mark⟩ := by
        simp [Quote.next, notMark.symm]
      have first :
          Steps closures (state.inLiteral mark (ch :: body ++ rest) statement previous)
            (state.inLiteral mark (body ++ rest) (statement.append [ch]) (some ch)) :=
        steps_quoted closures (state.inLiteral mark (ch :: body ++ rest) statement previous)
          calm.comment calm.name rfl rfl notLineEnd (dollars ch List.mem_cons_self) (.inl rfl)
          staysOpen
      have later :=
        inductionHypothesis
          (fun member => oneLine (List.mem_cons_of_mem ch member))
          (fun member => unbroken (List.mem_cons_of_mem ch member))
          (fun other member => dollars other (List.mem_cons_of_mem ch member))
          (statement.append [ch]) (some ch)
      have lastShape : (ch :: body).getLast?.or previous = body.getLast?.or (some ch) := by
        cases body <;> simp [List.getLast?_cons]
      rw [Statement.append_append] at later
      rw [lastShape]
      exact Relation.ReflTransGen.head first later

/-- An opening quote begins a literal. -/
theorem steps_literalStart
    (closures : Closures) {state : State} {mark : Char}
    (calm : state.Calm)
    (isMark : isQuote mark = true)
    (rest : Text) (statement : Statement) {previous : Option Char}
    (notEscaped : previous ≠ some '\\') :
    Steps closures (state.inLine (mark :: rest) statement previous)
      (state.inLiteral mark rest (statement.append [mark]) (some mark)) := by
  have opens : state.session.quote.next mark previous = ⟨true, some mark⟩ := by
    simp [Quote.next, notEscaped, calm.quote, isMark]
  exact steps_quoted closures (state.inLine (mark :: rest) statement previous) calm.comment
    calm.name rfl rfl (ne_of_holds isMark (by decide))
    (fun isDollar => absurd isDollar (ne_of_holds isMark (by decide))) (.inr isMark) opens

/-- The quote that opened a literal closes it, unless a backslash stands before it. -/
theorem steps_literalEnd
    (closures : Closures) {state : State} {mark : Char}
    (calm : state.Calm)
    (isMark : isQuote mark = true)
    (rest : Text) (statement : Statement) {previous : Option Char}
    (notEscaped : previous ≠ some '\\') :
    Steps closures (state.inLiteral mark (mark :: rest) statement previous)
      ((state.withQuote ⟨false, some mark⟩).inLine rest (statement.append [mark])
        (some mark)) := by
  have closes : (⟨true, some mark⟩ : Quote).next mark previous = ⟨false, some mark⟩ := by
    simp [Quote.next, notEscaped]
  exact steps_quoted closures (state.inLiteral mark (mark :: rest) statement previous) calm.comment
    calm.name rfl rfl (ne_of_holds isMark (by decide))
    (fun isDollar => absurd isDollar (ne_of_holds isMark (by decide))) (.inl rfl) closes

/-- A quoted literal becomes part of the statement with its quotes. -/
theorem reaches_literal
    (closures : Closures) {state : State} {mark : Char} {body : Text}
    (calm : state.Calm)
    (isMark : isQuote mark = true)
    (oneLine : '\n' ∉ body)
    (unbroken : mark ∉ body)
    (notEscaping : body.getLast? ≠ some '\\')
    (dollars : ∀ ch ∈ body, state.DollarIsPlain ch)
    (rest : Text) (statement : Statement) {previous : Option Char}
    (notEscaped : previous ≠ some '\\') :
    Reaches closures (state.inLine (mark :: body ++ mark :: rest) statement previous)
      ((state.withQuote ⟨false, some mark⟩).inLine rest
        (statement.append (mark :: body ++ [mark])) (some mark)) := by
  have opening : Steps closures (state.inLine (mark :: body ++ mark :: rest) statement previous)
      (state.inLiteral mark (body ++ mark :: rest) (statement.append [mark]) (some mark)) :=
    steps_literalStart closures calm isMark _ statement notEscaped
  have inside :=
    reaches_literalBody closures calm body (mark :: rest) oneLine unbroken dollars
      (statement.append [mark]) (some mark)
  have lastNotEscaping : body.getLast?.or (some mark) ≠ some '\\' := by
    cases last : body.getLast? with
    | none =>
        intro isBackslash
        rw [Option.none_or, Option.some.injEq] at isBackslash
        exact ne_of_holds isMark (by decide) isBackslash
    | some ch =>
        rw [last] at notEscaping
        exact notEscaping
  have closing :=
    steps_literalEnd closures calm isMark rest
      ((statement.append [mark]).append body) lastNotEscaping
  have whole :
      ((statement.append [mark]).append body).append [mark] =
        statement.append (mark :: body ++ [mark]) := by
    rw [Statement.append_append, Statement.append_append]
    rfl
  rw [whole] at closing
  exact (Relation.ReflTransGen.head opening inside).tail closing

end State

end GradleScript
