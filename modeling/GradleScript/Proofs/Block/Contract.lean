import GradleScript.Proofs.Block.Consumption

namespace GradleScript

/-!
# What every body leaves behind

The quote, the comment, the name and the context of a session are shared by all bodies that are
read in it.  Every body, however deeply nested, leaves no name half read, leaves the context in
which it was entered, and ends either at the end of the text or just after a closing brace that
stands outside literals and comments.  At every place the context is that of the blocks around the
place.
-/

/-- Whether statements stand in `dependencies` inside some open bodies, innermost first, if they do
or not around all of them. -/
def contextInside (initial : Bool) : List Opening → Bool
  | [] =>
      initial
  | opening :: outer =>
      opening.inside (contextInside initial outer)

/-- Whether every open body remembers the context around it, when it has to. -/
def RememberedInside (initial : Bool) : List Opening → Prop
  | [] =>
      True
  | opening :: outer =>
      opening.Remembers (contextInside initial outer) ∧ RememberedInside initial outer

/-- The context is that of `dependencies` exactly inside a block of this name. -/
theorem contextInside_iff
    (initial : Bool) (openings : List Opening) :
    contextInside initial openings = true ↔
      initial = true ∨ ∃ remembered, Opening.block dependenciesKey remembered ∈ openings := by
  induction openings with
  | nil =>
      simp [contextInside]
  | cons opening outer inductionHypothesis =>
      cases opening with
      | closure key repositories =>
          simp [contextInside, Opening.inside, inductionHypothesis]
      | block key remembered =>
          simp only [contextInside, Opening.inside, Bool.or_eq_true, inductionHypothesis,
            beq_iff_eq, List.mem_cons, Opening.block.injEq]
          constructor
          · rintro ((isInitial | ⟨other, member⟩) | isKey)
            · exact .inl isInitial
            · exact .inr ⟨other, .inr member⟩
            · exact .inr ⟨remembered, .inl ⟨isKey.symm, rfl⟩⟩
          · rintro (isInitial | ⟨other, ⟨isKey, _⟩ | member⟩)
            · exact .inl (.inl isInitial)
            · exact .inr isKey.symm
            · exact .inl (.inr ⟨other, member⟩)

/-- Whether no characters are left over depends on the form of the name and its characters only. -/
theorem Interpolation.Tidy.of_eq
    {first second : Interpolation}
    (tidy : first.Tidy)
    (forms : second.form = first.form)
    (names : second.heard = first.heard) :
    second.Tidy := by
  intro noName
  rw [names]
  exact tidy (forms.symm.trans noName)

/-- In the same contexts, no characters of a name are left over that had not been before. -/
theorem Interpolation.Tidy.of_contexts
    {first second : Session}
    (tidy : first.interpolation.Tidy)
    (same : second.contexts = first.contexts) :
    second.interpolation.Tidy := by
  have sameName : second.interpolation = first.interpolation :=
    congrArg Contexts.interpolation same
  exact tidy.of_eq (congrArg form sameName) (congrArg heard sameName)

/-- A name that has ended leaves none of its characters. -/
theorem Interpolation.tidy_closed
    (interpolation : Interpolation) :
    interpolation.closed.Tidy :=
  fun _ => rfl

/-- A statement never takes a character as a part of a name; only an open name does. -/
theorem Statement.turn_ne_namePart
    (statement : Statement) (ch : Char) :
    statement.turn ch ≠ .namePart := by
  unfold Statement.turn
  grind

namespace State

/-! ## Names -/

/-- A character that ends a name without braces leaves none of its characters. -/
theorem tidy_settle
    {state : State}
    (ch : Char)
    (tidy : state.session.interpolation.Tidy) :
    (state.settle ch).session.interpolation.Tidy := by
  unfold settle
  split
  · exact tidy
  · split
    · exact tidy
    · split
      · exact Interpolation.tidy_closed _
      · exact tidy
    · split
      · exact Interpolation.tidy_closed _
      · exact tidy

/-- Going on with the body around a finished one leaves the characters of the name as they are. -/
theorem heard_resume
    (state : State) (suspended : Suspended) (outer : List Suspended) :
    (state.resume suspended outer).session.interpolation.heard =
      state.session.interpolation.heard := by
  have sameName :=
    congrArg (fun body => body.session.interpolation.heard) (lexical_resume state suspended outer)
  apply sameName.trans
  cases suspended.opening <;> rfl

/-- Entering a block leaves no character of a name over. -/
theorem tidy_openBlock
    (closures : Closures) {state : State}
    (rest : Text)
    (tidy : state.session.interpolation.Tidy) :
    (openBlock closures state rest).session.interpolation.Tidy := by
  unfold openBlock
  dsimp only
  split
  · exact tidy.of_contexts (contexts_storeClosure _ _ _)
  · exact tidy
  · exact tidy
  · exact tidy

/-- Leaving a block leaves no character of a name over. -/
theorem tidy_closeBlock
    (state : State) {next : State} {rest : Text}
    (tidy : state.session.interpolation.Tidy)
    (closed : state.closeBlock rest = .running next) :
    next.session.interpolation.Tidy := by
  have endedTidy : (state.withRest rest).flush.session.interpolation.Tidy :=
    tidy.of_contexts (contexts_flush (state.withRest rest))
  unfold closeBlock at closed
  dsimp only at closed
  split at closed
  · next suspended outer around =>
      cases closed
      exact endedTidy.of_eq (form_resume _ _ _) (heard_resume _ _ _)
  · split at closed
    · cases closed
      exact endedTidy
    · cases closed

/-- A part of a name is only read while a name is. -/
theorem form_ne_none_of_turn
    {state : State} {ch : Char} {rest : Text}
    (turn : state.turn ch rest = .namePart) :
    state.session.interpolation.form ≠ none := by
  intro noName
  have notInStatement := state.frame.statement.turn_ne_namePart ch
  unfold State.turn at turn
  simp only [Interpolation.isOpen, noName] at turn
  grind

/-- Whatever a character is taken as, no characters are left over where no name is being read. -/
theorem tidy_advance
    {closures : Closures} {state next : State} {ch : Char} {rest : Text}
    (tidy : state.session.interpolation.Tidy)
    (advanced : state.advance closures ch rest = .running next) :
    next.session.interpolation.Tidy := by
  have settledTidy := tidy_settle ch tidy
  unfold advance at advanced
  dsimp only at advanced
  generalize state.settle ch = settled at advanced settledTidy
  cases turn : settled.turn ch rest with
  | comment =>
      rw [turn] at advanced
      cases advanced
      unfold readComment
      dsimp only
      split <;> exact settledTidy
  | namePart =>
      have nameOpen := form_ne_none_of_turn turn
      rw [turn] at advanced
      cases advanced
      intro noName
      unfold readNamePart at noName
      dsimp only at noName
      split at noName <;> exact (nameOpen noName).elim
  | nameEnd =>
      rw [turn] at advanced
      cases advanced
      exact Interpolation.tidy_closed _
  | lineEnd =>
      rw [turn] at advanced
      cases advanced
      -- A literal ends here, too, so the contexts change after the statement has been stored.
      have endedTidy := settledTidy.of_contexts (contexts_flush (settled.withRest rest))
      exact endedTidy
  | indentation =>
      rw [turn] at advanced
      cases advanced
      exact settledTidy
  | commentStart kind =>
      rw [turn] at advanced
      cases advanced
      have endedTidy := settledTidy.of_contexts (contexts_flush (settled.withLineStart false))
      exact endedTidy
  | nameStart =>
      rw [turn] at advanced
      cases advanced
      unfold readNameStart
      dsimp only
      split <;> exact fun noName => nomatch noName
  | quoted =>
      rw [turn] at advanced
      cases advanced
      exact settledTidy
  | call =>
      rw [turn] at advanced
      cases advanced
      exact settledTidy.of_contexts
        (contexts_readCall (settled.withLineStart false) (ch :: rest))
  | array =>
      rw [turn] at advanced
      cases advanced
      exact settledTidy.of_contexts
        (contexts_readArrayValue (settled.withLineStart false) (ch :: rest))
  | blockStart =>
      rw [turn] at advanced
      cases advanced
      exact tidy_openBlock closures rest settledTidy
  | blockEnd =>
      rw [turn] at advanced
      exact tidy_closeBlock (settled.withLineStart false) settledTidy advanced
  | keyEnd =>
      rw [turn] at advanced
      cases advanced
      unfold readKeyEnd
      dsimp only
      split
      · exact settledTidy
      · exact settledTidy.of_contexts (contexts_dispatchKey _)
  | plain =>
      rw [turn] at advanced
      cases advanced
      unfold readPlain
      dsimp only
      split <;> exact settledTidy

/-- One step leaves no characters of a name over. -/
theorem Steps.tidy
    {closures : Closures} {state next : State}
    (steps : Steps closures state next)
    (tidy : state.session.interpolation.Tidy) :
    next.session.interpolation.Tidy := by
  unfold Steps step at steps
  split at steps
  · cases steps
  · exact tidy_advance tidy steps

/-- No run leaves characters of a name over. -/
theorem Reaches.tidy
    {closures : Closures} {state later : State}
    (reaches : Reaches closures state later)
    (tidy : state.session.interpolation.Tidy) :
    later.session.interpolation.Tidy := by
  induction reaches with
  | refl =>
      exact tidy
  | tail _ steps inductionHypothesis =>
      exact Steps.tidy steps inductionHypothesis

/-- Reading a body leaves no name that is still being read. -/
theorem BodyRead.no_name
    {closures : Closures} {state finished : State}
    (reading : BodyRead closures state finished)
    (tidy : state.session.interpolation.Tidy) :
    finished.session.interpolation.form = none ∧ finished.session.interpolation.heard = [] := by
  induction reading with
  | @textEnd state atEnd =>
      have sameName : state.settleEnd.flush.session.interpolation =
          state.settleEnd.session.interpolation :=
        congrArg Contexts.interpolation (contexts_flush state.settleEnd)
      rw [sameName]
      refine ⟨form_settleEnd state, ?_⟩
      unfold settleEnd
      cases nameForm : state.session.interpolation.form with
      | none =>
          exact tidy nameForm
      | some form =>
          cases form <;> rfl
  | @brace state ch rest text closing =>
      have sameName : (state.closedAt ch rest).session.interpolation =
          (state.settle ch).session.interpolation :=
        congrArg Contexts.interpolation
          (contexts_flush (((state.settle ch).withLineStart false).withRest rest))
      have noName := (contexts_closed_of_turn (.inr closing.turn)).2.1
      rw [sameName]
      exact ⟨noName, tidy_settle ch tidy noName⟩
  | construct steps sameDepth _ inductionHypothesis =>
      exact inductionHypothesis (steps.tidy tidy)
  | @nested state opened inner finished suspended outer steps deeper body around _ bodyHypothesis
      inductionHypothesis =>
      obtain ⟨noName, noCharacters⟩ := bodyHypothesis (steps.tidy tidy)
      apply inductionHypothesis
      intro _
      rw [heard_resume, noCharacters]

/-! ## Contexts -/

/-- What the bodies around the current one are read for, innermost first. -/
def openings (state : State) : List Opening :=
  state.outer.map Suspended.opening

/-- What the bodies around are read for is part of what a body finds around it. -/
theorem openings_eq_surroundings
    (state : State) :
    state.openings = state.surroundings.outer.map Suspended.opening := by
  simp [openings, surroundings, lexical, Suspended.unshared]

/-- Going on with the body around a finished one leaves what the bodies around that one are read
for. -/
theorem openings_resume
    (state : State) (suspended : Suspended) (outer : List Suspended) :
    (state.resume suspended outer).openings = outer.map Suspended.opening := by
  rw [openings_eq_surroundings, outer_surroundings_resume, List.map_map]
  rfl

/-- Whether the context is that of the bodies around, each of which remembers its own. -/
structure InContext (initial : Bool) (state : State) : Prop where
  context :
    state.session.interpolation.inDependencies = contextInside initial state.openings
  remembered : RememberedInside initial state.openings

/-- A construct within a body, which leaves what is around it, keeps the body in its context. -/
theorem InContext.of_surroundings
    {initial : Bool} {first second : State}
    (inContext : first.InContext initial)
    (same : second.surroundings = first.surroundings) :
    second.InContext initial := by
  have openingsSame : second.openings = first.openings := by
    rw [openings_eq_surroundings, openings_eq_surroundings, same]
  have contexts :
      second.session.interpolation.inDependencies = first.session.interpolation.inDependencies :=
    congrArg (fun body => body.session.interpolation.inDependencies) same
  refine ⟨?_, ?_⟩
  · rw [contexts, openingsSame, inContext.context]
  · rw [openingsSame]
    exact inContext.remembered

/-- A body is entered in the context that its opening gives. -/
theorem InContext.entering
    {initial : Bool} {state opened : State} {opening : Opening}
    (inContext : state.InContext initial)
    (entering : Entering state opened opening) :
    opened.InContext initial := by
  obtain ⟨waiting, _, _, enteredShape⟩ := entering.around
  have openingsShape : opened.openings = opening :: state.openings := by
    rw [openings_eq_surroundings, openings_eq_surroundings, enteredShape]
    rfl
  have contexts :
      opened.session.interpolation.inDependencies =
        opening.inside state.session.interpolation.inDependencies :=
    congrArg (fun body => body.session.interpolation.inDependencies) enteredShape
  have remembers : opening.Remembers state.session.interpolation.inDependencies :=
    entering.remembers
  rw [inContext.context] at contexts remembers
  refine ⟨?_, ?_⟩
  · rw [contexts, openingsShape]
    rfl
  · rw [openingsShape]
    exact ⟨remembers, inContext.remembered⟩

/-- Going on with an enclosing body gives its context back. -/
theorem InContext.resume
    {initial : Bool} {state : State} {suspended : Suspended} {outer : List Suspended}
    (inContext : state.InContext initial)
    (around : state.outer = suspended :: outer) :
    (state.resume suspended outer).InContext initial := by
  have openingsShape : state.openings = suspended.opening :: outer.map Suspended.opening := by
    unfold openings
    rw [around, List.map_cons]
  obtain ⟨context, remembered⟩ := inContext
  rw [openingsShape] at context remembered
  have resumedOpenings := openings_resume state suspended outer
  have resumedContext :
      (state.resume suspended outer).session.interpolation.inDependencies =
        (state.resumedInterpolation suspended.opening).inDependencies :=
    congrArg (fun body => body.session.interpolation.inDependencies)
      (lexical_resume state suspended outer)
  refine ⟨?_, ?_⟩
  · rw [resumedContext, resumedOpenings]
    cases opening : suspended.opening with
    | block key inDependencies =>
        rw [opening] at remembered
        exact remembered.1 key inDependencies rfl
    | closure key repositories =>
        rw [opening] at context
        exact context
  · rw [resumedOpenings]
    exact remembered.2

/-- A step keeps the context that of the bodies around, whichever body it leads to. -/
theorem Steps.inContext
    {closures : Closures} {initial : Bool} {state next : State}
    (steps : Steps closures state next)
    (inContext : state.InContext initial) :
    next.InContext initial := by
  obtain ⟨ch, rest, _, movement⟩ := steps.movement
  cases movement with
  | within surroundings =>
      exact inContext.of_surroundings surroundings
  | into opening entering =>
      exact inContext.entering entering
  | outOf closing around =>
      exact (inContext.of_surroundings (surroundings_closedAt state ch rest)).resume around

/-- At every place of a run the context is that of the bodies around the place. -/
theorem Reaches.inContext
    {closures : Closures} {initial : Bool} {state later : State}
    (reaches : Reaches closures state later)
    (inContext : state.InContext initial) :
    later.InContext initial := by
  induction reaches with
  | refl =>
      exact inContext
  | tail _ steps inductionHypothesis =>
      exact Steps.inContext steps inductionHypothesis

/-! ## The places where bodies end -/

/-- A brace that ends a block is a closing brace. -/
theorem eq_of_turn_blockEnd
    {state : State} {ch : Char} {rest : Text}
    (turn : state.turn ch rest = .blockEnd) :
    ch = '}' := by
  obtain ⟨commentClosed, noName, quoteClosed⟩ := contexts_closed_of_turn (.inr turn)
  unfold State.turn at turn
  simp only [commentClosed, Interpolation.isOpen, noName, quoteClosed] at turn
  have inStatement : state.frame.statement.turn ch = .blockEnd → ch = '}' := by
    unfold Statement.turn
    grind
  grind

end State

/-- Whether a session stands just after a closing brace of a text, outside literals and comments. -/
structure Session.AfterBrace (text : Text) (session : Session) : Prop where
  notFirst : 0 < session.position
  brace : text[session.position - 1]? = some '}'
  quote : session.quote.isOpen = false
  comment : session.comment.isOpen = false

namespace State

/-- A body ends with the text or just after a closing brace. -/
theorem BodyRead.end_place
    {closures : Closures} {text : Text} {state finished : State}
    (reading : BodyRead closures state finished)
    (stands : state.session.StandsIn text) :
    finished.session.position = text.length ∨ finished.session.AfterBrace text := by
  induction reading with
  | @textEnd state atEnd =>
      have reading : BodyRead closures state _ := .textEnd atEnd
      have finishedStands :=
        standsIn_of_surroundings reading.surroundings_eq reading.rest_suffix stands
      left
      rw [finishedStands.position_eq_length_iff, rest_flush, rest_settleEnd, atEnd]
  | @brace state ch rest shape closing =>
      have reading : BodyRead closures state _ := .brace shape closing
      have finishedStands :=
        standsIn_of_surroundings reading.surroundings_eq reading.rest_suffix stands
      obtain ⟨commentClosed, _, quoteClosed⟩ := contexts_closed_of_turn (.inr closing.turn)
      have finishedLexical :=
        lexical_flush (((state.settle ch).withLineStart false).withRest rest)
      obtain ⟨before, textShape⟩ := stands.rest
      rw [shape, eq_of_turn_blockEnd closing.turn] at textShape
      have finishedPosition : (state.closedAt ch rest).session.position = before.length + 1 := by
        unfold Session.position
        rw [finishedStands.size, rest_closedAt, ← textShape]
        simp only [List.length_append, List.length_cons]
        omega
      right
      refine ⟨?_, ?_, ?_, ?_⟩
      · omega
      · rw [finishedPosition, ← textShape]
        simp
      · exact (congrArg (fun body => body.session.quote.isOpen) finishedLexical).trans quoteClosed
      · exact (congrArg (fun body => body.session.comment.isOpen) finishedLexical).trans
          commentClosed
  | construct steps sameDepth _ inductionHypothesis =>
      exact inductionHypothesis (steps.standsIn stands)
  | nested steps deeper body around _ _ inductionHypothesis =>
      obtain ⟨opening, entering⟩ := steps.entering deeper
      have resumed := (surroundings_resume entering body.surroundings_eq around).1
      refine inductionHypothesis (standsIn_of_surroundings resumed ?_ stands)
      rw [rest_resume]
      exact body.rest_suffix.trans steps.rest_suffix

/-! ## The contract -/

/-- The bodies that are entered while a body is read: the body itself, and those nested in it. -/
inductive Enters (closures : Closures) (start : State) : State → Prop where
  | outermost : Enters closures start start
  | nested
      {state opened : State}
      (reaches : Reaches closures start state)
      (steps : Steps closures state opened)
      (deeper : opened.outer.length = state.outer.length + 1) :
      Enters closures start opened

/-- What the reading of a body leaves behind. -/
structure Leaves (text : Text) (entry finished : State) : Prop where
  noName : finished.session.interpolation.isOpen = false
  noCharacters : finished.session.interpolation.name = []
  context :
    finished.session.interpolation.inDependencies = entry.session.interpolation.inDependencies
  place : finished.session.position = text.length ∨ finished.session.AfterBrace text

/-- Reading a body from a tidy state leaves behind what it should. -/
theorem BodyRead.leaves
    {closures : Closures} {text : Text} {state finished : State}
    (reading : BodyRead closures state finished)
    (stands : state.session.StandsIn text)
    (tidy : state.session.interpolation.Tidy) :
    Leaves text state finished := by
  obtain ⟨noName, noCharacters⟩ := reading.no_name tidy
  refine ⟨?_, ?_, ?_, reading.end_place stands⟩
  · simp [Interpolation.isOpen, noName]
  · simp [Interpolation.name, noCharacters]
  · exact congrArg (fun body => body.session.interpolation.inDependencies)
      reading.surroundings_eq

/-- Every body that is entered is reached, or it is the body itself. -/
theorem Enters.reaches
    {closures : Closures} {start entry : State}
    (enters : Enters closures start entry) :
    Reaches closures start entry := by
  cases enters with
  | outermost =>
      exact .refl
  | nested reaches steps _ =>
      exact reaches.tail steps

end State

namespace Session

/-- The session in which a text is read from its beginning, in some context. -/
def inContext (text : Text) (restricted inDependencies : Bool) (journal : Journal) : Session where
  size := text.length
  rest := text
  interpolation := { restricted := restricted, inDependencies := inDependencies }
  journal := journal

/-- Read bodies one after another in one session, each in its own mode, as a whole script or not. -/
def readBodies (closures : Closures) (session : Session) (calls : List (Mode × Bool)) : Session :=
  calls.foldl (fun left call => (left.readBody closures call.1 call.2).1) session

/-- A session between two bodies: in its text, with a tidy name, and in a context. -/
structure Between (text : Text) (inDependencies : Bool) (session : Session) : Prop where
  stands : session.StandsIn text
  tidy : session.interpolation.Tidy
  context : session.interpolation.inDependencies = inDependencies

/-- Reading a body leads from between two bodies to between two bodies. -/
theorem Between.readBody
    {text : Text} {inDependencies : Bool} {session : Session}
    (between : session.Between text inDependencies)
    (closures : Closures) (mode : Mode) (wholeScript : Bool) :
    (session.readBody closures mode wholeScript).1.Between text inDependencies := by
  obtain ⟨finished, reading⟩ :=
    State.exists_bodyRead closures (State.start session mode wholeScript)
  have contexts :=
    congrArg (fun body => body.session.interpolation.inDependencies) reading.surroundings_eq
  rw [State.readBody_eq_of_bodyRead reading]
  refine ⟨?_, ?_, contexts.trans between.context⟩
  · exact State.standsIn_of_surroundings reading.surroundings_eq reading.rest_suffix
      between.stands
  · exact fun _ => (reading.no_name between.tidy).2

/-- Reading bodies leads from between two bodies to between two bodies. -/
theorem Between.readBodies
    {text : Text} {inDependencies : Bool} {session : Session}
    (between : session.Between text inDependencies)
    (closures : Closures) (calls : List (Mode × Bool)) :
    (session.readBodies closures calls).Between text inDependencies := by
  induction calls generalizing session with
  | nil =>
      exact between
  | cons call calls inductionHypothesis =>
      exact inductionHypothesis (between.readBody closures call.1 call.2)

end Session

/--
Whatever bodies have been read in a session, the next one keeps the contract, and so does every
body nested in it, at every depth.  Each of them is read to its end and leaves no name half read,
the context in which it was entered, and a place at the end of the text or just after a closing
brace; a whole script leaves the end of the text.  Nested bodies are entered outside literals,
comments and names.  At every place that is reached, the context is that of `dependencies` exactly
when it was from the first or a block of this name is open around the place.
-/
theorem readBodies_contract
    (closures : Closures)
    (text : Text)
    (restricted inDependencies : Bool)
    (journal : Journal)
    (earlier : List (Mode × Bool))
    (mode : Mode)
    (wholeScript : Bool) :
    let session :=
      (Session.inContext text restricted inDependencies journal).readBodies closures earlier
    let start := State.start session mode wholeScript
    (∀ entry, State.Enters closures start entry →
      (∃ finished, State.BodyRead closures entry finished) ∧
        ∀ finished, State.BodyRead closures entry finished → State.Leaves text entry finished) ∧
      (∀ state opened, State.Reaches closures start state → State.Steps closures state opened →
        opened.outer.length = state.outer.length + 1 →
        opened.session.quote.isOpen = false ∧
          opened.session.comment.isOpen = false ∧
          opened.session.interpolation.isOpen = false ∧
          opened.session.interpolation.name = []) ∧
      (∀ state, State.Reaches closures start state →
        (state.session.interpolation.inDependencies = true ↔
          inDependencies = true ∨
            ∃ remembered, Opening.block dependenciesKey remembered ∈ state.openings)) ∧
      ∃ finished,
        State.BodyRead closures start finished ∧
          session.readBody closures mode wholeScript =
            (finished.session, finished.frame.entries) ∧
          (wholeScript = true → finished.session.position = text.length) := by
  intro session start
  have initially :
      (Session.inContext text restricted inDependencies journal).Between text inDependencies :=
    ⟨⟨rfl, List.suffix_rfl⟩, fun _ => rfl, rfl⟩
  have between : session.Between text inDependencies := initially.readBodies closures earlier
  have startContext : start.InContext inDependencies := ⟨between.context, trivial⟩
  refine ⟨?_, ?_, ?_, ?_⟩
  · intro entry enters
    refine ⟨State.exists_bodyRead closures entry, ?_⟩
    intro finished reading
    exact reading.leaves (enters.reaches.standsIn between.stands)
      (enters.reaches.tidy between.tidy)
  · intro state opened reaches steps deeper
    obtain ⟨opening, entering⟩ := steps.entering deeper
    have tidy := steps.tidy (reaches.tidy between.tidy)
    refine ⟨entering.quote, entering.comment, ?_, ?_⟩
    · simp [Interpolation.isOpen, entering.name]
    · simp [Interpolation.name, tidy entering.name]
  · intro state reaches
    rw [(reaches.inContext startContext).context, contextInside_iff]
  · obtain ⟨finished, reading⟩ := State.exists_bodyRead closures start
    refine ⟨finished, reading, State.readBody_eq_of_bodyRead reading, ?_⟩
    intro whole
    have finishedStands :=
      State.standsIn_of_surroundings reading.surroundings_eq reading.rest_suffix between.stands
    rw [finishedStands.position_eq_length_iff]
    exact reading.rest_of_wholeScript rfl whole

end GradleScript
