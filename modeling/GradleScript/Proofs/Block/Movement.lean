import GradleScript.Proofs.Block.Storing

namespace GradleScript

/-!
# How a construct moves between bodies

A construct stays in its body, opens a nested body, or ends its body.  This module says so once,
with everything that each of the three does to the bodies around and to the contexts; what holds
along a whole reading is derived from it.
-/

/-- Whether statements stand in `dependencies` inside what is opened, if they do or not
around it. -/
def Opening.inside (opening : Opening) (inDependencies : Bool) : Bool :=
  match opening with
  | .block key _ =>
      inDependencies || key == dependenciesKey
  | .closure _ _ =>
      inDependencies

/-- Whether what is opened remembers the context around it, when it has to. -/
def Opening.Remembers (opening : Opening) (inDependencies : Bool) : Prop :=
  ∀ key remembered, opening = .block key remembered → remembered = inDependencies

/-- A name that is not being read has no characters. -/
def Interpolation.Tidy (interpolation : Interpolation) : Prop :=
  interpolation.form = none → interpolation.heard = []

/-- A frame that waits between two statements, at the beginning of a line. -/
structure Frame.Idle (frame : Frame) : Prop where
  statement : frame.statement = {}
  lineStart : frame.lineStart = true
  previous : frame.previous = none

namespace State

/-- What stays as it is while the constructs of one body are read. -/
def surroundings (state : State) : State :=
  { state.lexical with
    session := {
      size := state.lexical.session.size
      interpolation := {
        restricted := state.lexical.session.interpolation.restricted
        inDependencies := state.lexical.session.interpolation.inDependencies } }
    frame := { mode := state.lexical.frame.mode } }

/-! ## What keeps the surroundings -/

/-- The surroundings are part of the lexical side. -/
theorem surroundings_congr
    {first second : State}
    (same : first.lexical = second.lexical) :
    first.surroundings = second.surroundings := by
  unfold surroundings
  rw [same]

/-- The surroundings are where the body stands, its mode, and its context. -/
theorem surroundings_ext
    {first second : State}
    (sizes : first.session.size = second.session.size)
    (restrictions :
      first.session.interpolation.restricted = second.session.interpolation.restricted)
    (contexts :
      first.session.interpolation.inDependencies = second.session.interpolation.inDependencies)
    (modes : first.frame.mode = second.frame.mode)
    (outers : first.outer.map Suspended.unshared = second.outer.map Suspended.unshared)
    (scripts : first.wholeScript = second.wholeScript) :
    first.surroundings = second.surroundings := by
  simp only [surroundings, lexical, sizes, restrictions, contexts, modes, outers, scripts]

@[simp] theorem surroundings_withRest
    (state : State) (rest : Text) :
    (state.withRest rest).surroundings = state.surroundings :=
  rfl

@[simp] theorem surroundings_withPrevious
    (state : State) (previous : Option Char) :
    (state.withPrevious previous).surroundings = state.surroundings :=
  rfl

@[simp] theorem surroundings_withLineStart
    (state : State) (lineStart : Bool) :
    (state.withLineStart lineStart).surroundings = state.surroundings :=
  rfl

@[simp] theorem surroundings_withQuote
    (state : State) (quote : Quote) :
    (state.withQuote quote).surroundings = state.surroundings :=
  rfl

@[simp] theorem surroundings_withComment
    (state : State) (comment : Comment) :
    (state.withComment comment).surroundings = state.surroundings :=
  rfl

@[simp] theorem surroundings_withStatement
    (state : State) (statement : Statement) :
    (state.withStatement statement).surroundings = state.surroundings :=
  rfl

@[simp] theorem surroundings_append
    (state : State) (piece : Text) :
    (state.append piece).surroundings = state.surroundings :=
  rfl

@[simp] theorem surroundings_withJournal
    (state : State) (journal : Journal) :
    (state.withJournal journal).surroundings = state.surroundings :=
  rfl

/-- Beginning a name keeps the restriction and the context of names. -/
@[simp] theorem surroundings_opened
    (state : State) (form : NameForm) :
    (state.withInterpolation (state.session.interpolation.opened form)).surroundings =
      state.surroundings :=
  rfl

/-- A name that goes on keeps the restriction and the context of names. -/
@[simp] theorem surroundings_extend
    (state : State) (piece : Text) :
    (state.withInterpolation (state.session.interpolation.extend piece)).surroundings =
      state.surroundings :=
  rfl

/-- Recording a value happens within the current body. -/
@[simp] theorem surroundings_record
    (state : State) (key : Text) (value : Value) :
    (state.record key value).surroundings = state.surroundings :=
  surroundings_congr (lexical_record state key value)

/-- Recording the text of a value happens within the current body. -/
@[simp] theorem surroundings_recordText
    (state : State) (key raw : Text) :
    (state.recordText key raw).surroundings = state.surroundings :=
  surroundings_congr (lexical_recordText state key raw)

/-- Storing a closure happens within the current body. -/
@[simp] theorem surroundings_storeClosure
    (state : State) (key : Text) (value : Value) :
    (state.storeClosure key value).surroundings = state.surroundings :=
  surroundings_congr (lexical_storeClosure state key value)

/-- Ending a statement happens within the current body. -/
@[simp] theorem surroundings_flush
    (state : State) :
    state.flush.surroundings = state.surroundings := by
  have ended : state.flush.lexical = (state.withStatement {}).lexical := lexical_flush state
  exact (surroundings_congr ended).trans rfl

/-- A name that has a value is ended within the current body. -/
@[simp] theorem surroundings_spliceName
    (state : State) :
    state.spliceName.surroundings = state.surroundings :=
  rfl

/-- A name that has no value is ended within the current body. -/
@[simp] theorem surroundings_restoreName
    (state : State) :
    state.restoreName.surroundings = state.surroundings :=
  rfl

/-- A character that ends a name without braces changes nothing around the body. -/
@[simp] theorem surroundings_settle
    (state : State) (ch : Char) :
    (state.settle ch).surroundings = state.surroundings := by
  unfold settle
  split
  · rfl
  · split
    · rfl
    · split <;> simp
    · split <;> simp

/-- The end of the text changes nothing around the body. -/
@[simp] theorem surroundings_settleEnd
    (state : State) :
    state.settleEnd.surroundings = state.surroundings := by
  unfold settleEnd
  split <;> simp

/-- A call is read within the current body. -/
@[simp] theorem surroundings_readCall
    (state : State) (text : Text) :
    (state.readCall text).surroundings = state.surroundings := by
  unfold readCall keepCall
  split
  · simp
  · split
    · dsimp only
      split <;> simp
    · simp

/-- An array literal is read within the current body. -/
@[simp] theorem surroundings_readArrayValue
    (state : State) (text : Text) :
    (state.readArrayValue text).surroundings = state.surroundings := by
  simp [readArrayValue]

/-- A key, whether a declaration, a conditional or a plain one, is read within the current body. -/
@[simp] theorem surroundings_dispatchKey
    (state : State) :
    state.dispatchKey.surroundings = state.surroundings := by
  unfold dispatchKey
  dsimp only
  split
  · split <;> simp
  · split <;> simp

/-- Going on with a body around leaves the bodies around that one. -/
theorem outer_surroundings_resume
    (state : State) (suspended : Suspended) (outer : List Suspended) :
    (state.resume suspended outer).surroundings.outer = outer.map Suspended.unshared :=
  congrArg (fun body => body.outer) (lexical_resume state suspended outer)

/-- The surroundings have as many bodies around as the state. -/
theorem length_outer_surroundings
    (state : State) :
    state.surroundings.outer.length = state.outer.length := by
  simp [surroundings, lexical]

/-! ## The three movements -/

/-- The state in which the brace `ch` finishes the current body. -/
def closedAt (state : State) (ch : Char) (rest : Text) : State :=
  (((state.settle ch).withLineStart false).withRest rest).flush

/-- A closing brace ends the last statement within the body that it finishes. -/
theorem surroundings_closedAt
    (state : State) (ch : Char) (rest : Text) :
    (state.closedAt ch rest).surroundings = state.surroundings := by
  simp [closedAt]

/-- A closing brace does not say whether there is a body around the one that it finishes. -/
theorem outer_closedAt_eq_nil_iff
    (state : State) (ch : Char) (rest : Text) :
    (state.closedAt ch rest).outer = [] ↔ state.outer = [] := by
  have depths :=
    congrArg (fun body => body.outer.length) (surroundings_closedAt state ch rest)
  simp only [length_outer_surroundings] at depths
  rw [← List.length_eq_zero_iff, depths, List.length_eq_zero_iff]

/-- A closing brace does not say whether the body that it finishes is a whole script. -/
theorem wholeScript_closedAt
    (state : State) (ch : Char) (rest : Text) :
    (state.closedAt ch rest).wholeScript = state.wholeScript :=
  congrArg (fun body => body.wholeScript) (surroundings_closedAt state ch rest)

/-- Whether the next character is a brace that finishes the current body. -/
structure Closing (state : State) (ch : Char) (rest : Text) : Prop where
  turn : (state.settle ch).turn ch rest = .blockEnd
  inBlock : state.outer ≠ [] ∨ state.wholeScript = false

/-- The surroundings of a body that is entered from others, while `waiting` waits for its end. -/
def entered (around : State) (waiting : Frame) (opening : Opening) (mode : Mode) : State :=
  { around with
    session := {
      around.session with
      interpolation := {
        around.session.interpolation with
        inDependencies := opening.inside around.session.interpolation.inDependencies } }
    frame := { mode := mode }
    outer := ⟨waiting, opening⟩ :: around.outer }

/-- The frame of a body while a nested one is read. -/
def waitingFrame (state : State) : Frame :=
  { state.frame with shared := [], statement := {}, lineStart := true, previous := none }

/-- What holds when a nested body is entered from a body. -/
structure Entering (state opened : State) (opening : Opening) : Prop where
  around :
    ∃ waiting : Frame,
      waiting.Idle ∧
        waiting.mode = state.surroundings.frame.mode ∧
        opened.surroundings = state.surroundings.entered waiting opening opened.frame.mode
  remembers : opening.Remembers state.surroundings.session.interpolation.inDependencies
  frame : opened.frame = { mode := opened.frame.mode }
  quote : opened.session.quote.isOpen = false
  comment : opened.session.comment.isOpen = false
  name : opened.session.interpolation.form = none

/-- What the construct at a character can do: stay in its body, enter a nested one, or finish the
body it stands in. -/
inductive Movement (state : State) (ch : Char) (rest : Text) : Progress → Prop where
  | within
      {next : State}
      (surroundings : next.surroundings = state.surroundings) :
      Movement state ch rest (.running next)
  | into
      {opened : State}
      (opening : Opening)
      (entering : Entering state opened opening) :
      Movement state ch rest (.running opened)
  | outOf
      {suspended : Suspended}
      {outer : List Suspended}
      (closing : Closing state ch rest)
      (around : (state.closedAt ch rest).outer = suspended :: outer) :
      Movement state ch rest
        (.running ((state.closedAt ch rest).resume suspended outer))
  | finished
      (closing : Closing state ch rest)
      (alone : (state.closedAt ch rest).outer = []) :
      Movement state ch rest
        (.closed (state.closedAt ch rest).session (state.closedAt ch rest).frame.entries)

/-- A brace is read as one only outside comments, names and quoted literals. -/
theorem contexts_closed_of_turn
    {state : State} {ch : Char} {rest : Text}
    (turn : state.turn ch rest = .blockStart ∨ state.turn ch rest = .blockEnd) :
    state.session.comment.isOpen = false ∧
      state.session.interpolation.form = none ∧
      state.session.quote.isOpen = false := by
  unfold State.turn at turn
  dsimp only at turn
  cases commentOpen : state.session.comment.isOpen with
  | true =>
      simp [commentOpen] at turn
  | false =>
      cases nameForm : state.session.interpolation.form with
      | some form =>
          simp only [commentOpen, Interpolation.isOpen, nameForm, Option.isSome_some] at turn
          split at turn
          · contradiction
          · split at turn
            · split at turn <;> simp at turn
            · contradiction
      | none =>
          cases quoteOpen : state.session.quote.isOpen with
          | true =>
              simp only [commentOpen, Interpolation.isOpen, nameForm, quoteOpen] at turn
              grind
          | false =>
              exact ⟨rfl, rfl, rfl⟩

/-- What is entered depends on the surroundings alone. -/
theorem Entering.of_surroundings
    {first second opened : State} {opening : Opening}
    (entering : Entering first opened opening)
    (same : first.surroundings = second.surroundings) :
    Entering second opened opening := by
  obtain ⟨around, remembers, frame, quote, comment, name⟩ := entering
  rw [same] at around remembers
  exact ⟨around, remembers, frame, quote, comment, name⟩

/-- An opening brace enters a nested body, unless it is that of an array closure. -/
theorem entering_openBlock
    (closures : Closures) (state : State) (rest : Text)
    (commentClosed : state.session.comment.isOpen = false)
    (noName : state.session.interpolation.form = none)
    (quoteClosed : state.session.quote.isOpen = false) :
    (openBlock closures state rest).surroundings = state.surroundings ∨
      ∃ opening, Entering state (openBlock closures state rest) opening := by
  unfold openBlock
  dsimp only
  split
  · left
    simp
  · right
    refine
      ⟨.closure _ true, ⟨state.waitingFrame, ⟨rfl, rfl, rfl⟩, rfl, rfl⟩, ?_, rfl, quoteClosed,
        commentClosed, noName⟩
    simp [Opening.Remembers]
  · right
    refine
      ⟨.closure _ false, ⟨state.waitingFrame, ⟨rfl, rfl, rfl⟩, rfl, rfl⟩, ?_, rfl, quoteClosed,
        commentClosed, noName⟩
    simp [Opening.Remembers]
  · right
    refine
      ⟨.block _ _, ⟨state.waitingFrame, ⟨rfl, rfl, rfl⟩, rfl, rfl⟩, ?_, rfl, quoteClosed,
        commentClosed, noName⟩
    simp [Opening.Remembers, surroundings, lexical]

/-- A closing brace that finishes a nested body goes on with the body around it. -/
theorem closeBlock_of_around
    {state : State} {ch : Char} {rest : Text} {suspended : Suspended} {outer : List Suspended}
    (around : (state.closedAt ch rest).outer = suspended :: outer) :
    ((state.settle ch).withLineStart false).closeBlock rest =
      .running ((state.closedAt ch rest).resume suspended outer) := by
  unfold closedAt at around
  unfold closeBlock
  dsimp only
  rw [around]
  rfl

/-- A closing brace without an open body finishes what is read, or is reported where a whole script
is. -/
theorem closeBlock_of_alone
    {state : State} {ch : Char} {rest : Text}
    (alone : (state.closedAt ch rest).outer = []) :
    ((state.settle ch).withLineStart false).closeBlock rest =
      if state.wholeScript then
        .running ((state.closedAt ch rest).withJournal
          ((state.closedAt ch rest).session.journal.report
            (.strayBlockEnd (state.closedAt ch rest).session.position)))
      else
        .closed (state.closedAt ch rest).session (state.closedAt ch rest).frame.entries := by
  rw [← wholeScript_closedAt state ch rest]
  unfold closedAt at alone
  unfold closeBlock
  dsimp only
  rw [alone]
  rfl

/-- A closing brace ends the current body or, outside every block of a script, nothing. -/
theorem movement_closeBlock
    {state : State} {ch : Char} {rest : Text}
    (turn : (state.settle ch).turn ch rest = .blockEnd) :
    Movement state ch rest (((state.settle ch).withLineStart false).closeBlock rest) := by
  cases around : (state.closedAt ch rest).outer with
  | cons suspended outer =>
      rw [closeBlock_of_around around]
      refine .outOf ⟨turn, .inl ?_⟩ around
      rw [ne_eq, ← outer_closedAt_eq_nil_iff state ch rest, around]
      exact List.cons_ne_nil suspended outer
  | nil =>
      rw [closeBlock_of_alone around]
      by_cases whole : state.wholeScript = true
      · rw [if_pos whole]
        exact .within (surroundings_closedAt state ch rest)
      · rw [if_neg whole]
        exact .finished ⟨turn, .inr (Bool.eq_false_iff.mpr whole)⟩ around

/-- A construct that is no brace of a block stays in its body. -/
theorem surroundings_take
    {closures : Closures} {state next : State} {ch : Char} {rest : Text} {turn : Turn}
    (noStart : turn ≠ .blockStart)
    (noEnd : turn ≠ .blockEnd)
    (taken : state.take closures ch rest turn = .running next) :
    next.surroundings = state.surroundings := by
  cases turn with
  | blockStart =>
      exact (noStart rfl).elim
  | blockEnd =>
      exact (noEnd rfl).elim
  | comment =>
      cases taken
      unfold readComment
      dsimp only
      split <;> simp
  | namePart =>
      cases taken
      unfold readNamePart
      dsimp only
      split <;> rfl
  | nameEnd =>
      cases taken
      simp
  | lineEnd =>
      cases taken
      simp [readLineEnd]
  | indentation =>
      cases taken
      simp
  | commentStart kind =>
      cases taken
      simp [readCommentStart]
  | nameStart =>
      cases taken
      unfold readNameStart
      dsimp only
      split <;> rfl
  | quoted =>
      cases taken
      simp [readQuoted]
  | call =>
      cases taken
      simp
  | array =>
      cases taken
      simp
  | keyEnd =>
      cases taken
      unfold readKeyEnd
      dsimp only
      split <;> simp
  | plain =>
      cases taken
      unfold readPlain
      dsimp only
      split <;> simp

/-- A construct other than a closing brace does not finish the reading. -/
theorem exists_take_eq_running
    (closures : Closures) (state : State) (ch : Char) (rest : Text) {turn : Turn}
    (noEnd : turn ≠ .blockEnd) :
    ∃ next, state.take closures ch rest turn = .running next := by
  cases turn with
  | blockEnd =>
      exact (noEnd rfl).elim
  | _ =>
      exact ⟨_, rfl⟩

/-- Every construct makes one of the three movements. -/
theorem movement_advance
    (closures : Closures) (state : State) (ch : Char) (rest : Text) :
    Movement state ch rest (state.advance closures ch rest) := by
  unfold advance
  dsimp only
  by_cases isStart : (state.settle ch).turn ch rest = .blockStart
  · have sameBody :
        ((state.settle ch).withLineStart false).surroundings = state.surroundings := by
      simp
    obtain ⟨commentClosed, noName, quoteClosed⟩ := contexts_closed_of_turn (.inl isStart)
    rw [isStart]
    rcases entering_openBlock closures ((state.settle ch).withLineStart false) rest
        commentClosed noName quoteClosed with inBody | ⟨opening, entering⟩
    · exact .within (inBody.trans sameBody)
    · exact .into opening (entering.of_surroundings sameBody)
  · by_cases isEnd : (state.settle ch).turn ch rest = .blockEnd
    · rw [isEnd]
      exact movement_closeBlock isEnd
    · obtain ⟨next, taken⟩ := exists_take_eq_running closures (state.settle ch) ch rest isEnd
      rw [taken]
      exact .within ((surroundings_take isStart isEnd taken).trans (surroundings_settle state ch))

end State

end GradleScript
