import GradleScript.Proofs.Simulation.Storing
import GradleScript.Proofs.Block.Scanning
import GradleScript.Proofs.Block.Stored

namespace GradleScript

/-!
# Two states that are read from alike

The texts that are left of two states need not be the same, as long as they are scanned alike:
they begin with the same character, and what is left after a construct of the one follows, as the
whole does, what is left after it of the other.

A relation between states is a simulation when related states have such texts and agree on what
decides how the next character is read, and when the elementary acts of reading keep it.  A
construct that is no part of a name then leads from related states to related states.
-/

/-! ## Texts that are scanned alike -/

/-- A relation between texts that are scanned alike. -/
structure TextSimulation (follows : Text → Text → Prop) : Prop where
  cons {ch : Char} {rest other : Text} :
    follows (ch :: rest) other → ∃ otherRest, other = ch :: otherRest ∧ follows rest otherRest
  commentAt {ch : Char} {rest otherRest : Text} :
    follows (ch :: rest) (ch :: otherRest) →
      commentAt? (ch :: otherRest) = commentAt? (ch :: rest)
  brace {text other : Text} :
    follows text other → other.head? = some '{' → text.head? = some '{'
  call {rest otherRest : Text} :
    follows ('(' :: rest) ('(' :: otherRest) →
      follows (parentheses.after ('(' :: rest)) (parentheses.after ('(' :: otherRest))
  conditional {text other : Text} :
    follows text other → follows (afterConditional text) (afterConditional other)
  declaredName {text other : Text} :
    follows text other → (readDeclaration other).1 = (readDeclaration text).1
  declaration {text other : Text} :
    follows text other → follows (readDeclaration text).2 (readDeclaration other).2

/-- Equal texts are scanned alike. -/
theorem textSimulation_eq : TextSimulation Eq where
  cons equal := ⟨_, equal.symm, rfl⟩
  commentAt equal := congrArg commentAt? equal.symm
  brace equal isBrace := equal ▸ isBrace
  call equal := congrArg parentheses.after equal
  conditional equal := congrArg afterConditional equal
  declaredName equal := congrArg (fun text => (readDeclaration text).1) equal.symm
  declaration equal := congrArg (fun text => (readDeclaration text).2) equal

namespace TextSimulation

variable {follows : Text → Text → Prop}

/-- Texts that are scanned alike are scanned alike behind their first character. -/
theorem tail
    (texts : TextSimulation follows)
    {ch : Char} {rest otherRest : Text}
    (place : follows (ch :: rest) (ch :: otherRest)) :
    follows rest otherRest := by
  obtain ⟨left, shape, restsFollow⟩ := texts.cons place
  rw [(List.cons.inj shape).2]
  exact restsFollow

/-- Of texts that are scanned alike, both begin with an opening brace or neither does. -/
theorem brace_iff
    (texts : TextSimulation follows)
    {text other : Text}
    (textsFollow : follows text other) :
    other.head? = some '{' ↔ text.head? = some '{' := by
  refine ⟨texts.brace textsFollow, ?_⟩
  intro isBrace
  obtain ⟨rest, rfl⟩ := List.head?_eq_some_iff.mp isBrace
  obtain ⟨otherRest, rfl, _⟩ := texts.cons textsFollow
  rfl

end TextSimulation

/-- The key that a block goes by whose brace follows a statement. -/
def Statement.blockKey (statement : Statement) : Text :=
  if statement.key.isEmpty then strip statement.part else statement.key

/-- Whether a call that is read in a frame is kept as a key, with its text. -/
def Frame.KeepsCall (frame : Frame) : Prop :=
  frame.mode.keepCalls = true ∧ frame.statement.part ≠ ifWord

/-- Whether the array literals at the front of two texts are the same, and what is left follows. -/
def ReadsArrayAlike (follows : Text → Text → Prop) (text other : Text) : Prop :=
  (readArray other).1 = (readArray text).1 ∧ follows (readArray text).2 (readArray other).2

/-- Whether everything that is kept of a construct with its text is the same in two texts: the call
that becomes a key, and the items of an array literal. -/
def KeepsAlike
    (follows : Text → Text → Prop)
    (closures : Closures)
    (frame : Frame)
    (text other : Text) :
    Turn → Prop
  | .call =>
      frame.KeepsCall →
        parentheses.taken other = parentheses.taken text ∧
          follows (dropSpaces (parentheses.after text)) (dropSpaces (parentheses.after other))
  | .array =>
      ReadsArrayAlike follows text other
  | .blockStart =>
      closures.find? frame.statement.blockKey = some .array →
        ReadsArrayAlike follows text.tail other.tail
  | _ =>
      True

/-- A text keeps of a construct what it keeps. -/
theorem keepsAlike_eq
    (closures : Closures) (frame : Frame) (text : Text) (turn : Turn) :
    KeepsAlike Eq closures frame text text turn := by
  cases turn with
  | call =>
      exact fun _ => ⟨rfl, rfl⟩
  | array =>
      exact ⟨rfl, rfl⟩
  | blockStart =>
      exact fun _ => ⟨rfl, rfl⟩
  | _ =>
      trivial

/-- Whether what is left after the construct at the front of a text follows, and what is kept of the
construct with its text is the same. -/
def ReadsAlike
    (follows : Text → Text → Prop)
    (closures : Closures)
    (frame : Frame)
    (text other : Text) :
    Turn → Prop
  | .commentStart _ =>
      follows (text.drop 2) (other.drop 2)
  | .nameStart =>
      follows text.tail other.tail ∧
        (other.tail.head? = some '{' ↔ text.tail.head? = some '{') ∧
          (text.tail.head? = some '{' → follows (text.drop 2) (other.drop 2))
  | .call =>
      (frame.statement.part = ifWord →
          follows (afterConditional text) (afterConditional other)) ∧
        (frame.KeepsCall →
          parentheses.taken other = parentheses.taken text ∧
            follows (dropSpaces (parentheses.after text))
              (dropSpaces (parentheses.after other)) ∧
            ((dropSpaces (parentheses.after other)).head? = some '{' ↔
              (dropSpaces (parentheses.after text)).head? = some '{')) ∧
          (frame.statement.part ≠ ifWord → frame.mode.keepCalls = false →
            follows (parentheses.after text) (parentheses.after other))
  | .array =>
      ReadsArrayAlike follows text other
  | .blockStart =>
      follows text.tail other.tail ∧
        (closures.find? frame.statement.blockKey = some .array →
          ReadsArrayAlike follows text.tail other.tail)
  | .keyEnd =>
      follows text.tail other.tail ∧
        (isDeclarationWord frame.statement.part = true →
          (readDeclaration other.tail).1 = (readDeclaration text.tail).1 ∧
            follows (readDeclaration text.tail).2 (readDeclaration other.tail).2) ∧
          (frame.statement.part = ifWord →
            follows (afterConditional text.tail) (afterConditional other.tail))
  | _ =>
      follows text.tail other.tail

/-! ## States that are read from alike -/

/-- The turns that belong to the reading of a name. -/
def Turn.isOfName : Turn → Bool
  | .namePart | .nameEnd | .nameStart => true
  | _ => false

namespace State

/-- Report a closing brace that stands outside every block. -/
def reportStray (state : State) : State :=
  state.withJournal
    (state.session.journal.report (.strayBlockEnd state.session.position))

/-- A turn that starts a comment is taken where one starts. -/
theorem commentAt?_of_turn
    {state : State} {ch : Char} {rest : Text} {kind : CommentKind}
    (turn : state.turn ch rest = .commentStart kind) :
    commentAt? (ch :: rest) = some kind := by
  have notOfStatement : state.frame.statement.turn ch ≠ .commentStart kind := by
    unfold Statement.turn
    repeat' split
    all_goals simp
  unfold State.turn at turn
  dsimp only at turn
  repeat' split at turn
  all_goals simp_all

/-- Texts that are scanned alike, and of which the same is kept, are read alike. -/
theorem readsAlike_turn
    {follows : Text → Text → Prop} {closures : Closures} {state : State}
    {ch : Char} {rest otherRest : Text}
    (texts : TextSimulation follows)
    (place : follows (ch :: rest) (ch :: otherRest))
    (keeps :
      KeepsAlike follows closures state.frame (ch :: rest) (ch :: otherRest)
        (state.turn ch rest)) :
    ReadsAlike follows closures state.frame (ch :: rest) (ch :: otherRest)
      (state.turn ch rest) := by
  have restsFollow := texts.tail place
  cases turn : state.turn ch rest with
  | commentStart kind =>
      -- A comment has a second character, so what follows it is scanned alike too.
      have starts : commentAt? (ch :: rest) = some kind := commentAt?_of_turn turn
      cases rest with
      | nil =>
          cases starts
      | cons second body =>
          obtain ⟨otherBody, rfl, bodiesFollow⟩ := texts.cons restsFollow
          exact bodiesFollow
  | nameStart =>
      refine ⟨restsFollow, texts.brace_iff restsFollow, ?_⟩
      intro isBrace
      obtain ⟨name, rfl⟩ := List.head?_eq_some_iff.mp isBrace
      obtain ⟨otherName, rfl, namesFollow⟩ := texts.cons restsFollow
      exact namesFollow
  | call =>
      obtain rfl := eq_of_turn_call turn
      rw [turn] at keeps
      refine ⟨fun _ => texts.conditional place, ?_, fun _ _ => texts.call place⟩
      intro keepsCall
      obtain ⟨sameCall, leftFollows⟩ := keeps keepsCall
      exact ⟨sameCall, leftFollows, texts.brace_iff leftFollows⟩
  | array =>
      rw [turn] at keeps
      exact keeps
  | blockStart =>
      rw [turn] at keeps
      exact ⟨restsFollow, keeps⟩
  | keyEnd =>
      exact
        ⟨restsFollow, fun _ => ⟨texts.declaredName restsFollow, texts.declaration restsFollow⟩,
          fun _ => texts.conditional restsFollow⟩
  | _ =>
      exact restsFollow

/-- A relation between states, over one between the texts that are left, that the elementary acts of
reading keep. -/
structure Simulation (follows : Text → Text → Prop) (related : State → State → Prop) : Prop where
  rest {first second : State} :
    related first second → follows first.session.rest second.session.rest
  statement {first second : State} :
    related first second → second.frame.statement = first.frame.statement
  mode {first second : State} :
    related first second → second.frame.mode = first.frame.mode
  lineStart {first second : State} :
    related first second → second.frame.lineStart = first.frame.lineStart
  commentOpen {first second : State} :
    related first second → second.session.comment.isOpen = first.session.comment.isOpen
  form {first second : State} :
    related first second →
      second.session.interpolation.form = first.session.interpolation.form
  quoteOpen {first second : State} :
    related first second → second.session.quote.isOpen = first.session.quote.isOpen
  withRest {first second : State} {rest otherRest : Text} :
    follows rest otherRest → related first second →
      related (first.withRest rest) (second.withRest otherRest)
  withStatement {first second : State} (statement : Statement) :
    related first second → related (first.withStatement statement) (second.withStatement statement)
  withPrevious {first second : State} (previous : Option Char) :
    related first second → related (first.withPrevious previous) (second.withPrevious previous)
  withLineStart {first second : State} (lineStart : Bool) :
    related first second → related (first.withLineStart lineStart) (second.withLineStart lineStart)
  withComment {first second : State} (comment : Comment) :
    related first second → related (first.withComment comment) (second.withComment comment)
  hearComment {first second : State} (ch : Char) :
    related first second →
      (second.session.comment.hear [ch]).1 = (first.session.comment.hear [ch]).1 ∧
        related (first.withComment (first.session.comment.hear [ch]).2)
          (second.withComment (second.session.comment.hear [ch]).2)
  closeQuote {first second : State} :
    related first second → related (first.withQuote .closed) (second.withQuote .closed)
  hearQuote {first second : State} (ch : Char) :
    related first second →
      related (first.withQuote (first.session.quote.next ch first.frame.previous))
        (second.withQuote (second.session.quote.next ch second.frame.previous))
  record {first second : State} (key : Text) (value : Value) :
    related first second → related (first.record key value) (second.record key value)
  storeClosure {first second : State} (key : Text) (value : Value) :
    related first second → related (first.storeClosure key value) (second.storeClosure key value)
  enterBlock {first second : State} (key : Text) :
    related first second → second.frame.previous = first.frame.previous →
      related (first.enterBlock key) (second.enterBlock key)
  enterClosure {first second : State} (key : Text) (repositories : Bool) (mode : Mode) :
    related first second → second.frame.previous = first.frame.previous →
      related (first.suspend (.closure key repositories) mode)
        (second.suspend (.closure key repositories) mode)
  resume {first second : State} {suspended : Suspended} {outer : List Suspended} :
    related first second → first.outer = suspended :: outer →
      ∃ otherSuspended otherOuter,
        second.outer = otherSuspended :: otherOuter ∧
          related (first.resume suspended outer) (second.resume otherSuspended otherOuter)
  stray {first second : State} :
    related first second → first.outer = [] → first.wholeScript = true →
      second.outer = [] ∧ related first.reportStray second.reportStray

namespace Simulation

variable {follows : Text → Text → Prop} {related : State → State → Prop} {first second : State}

/-- The text of a value is recorded in related states alike. -/
theorem recordText
    (simulation : Simulation follows related)
    (areRelated : related first second)
    (key raw : Text) :
    related (first.recordText key raw) (second.recordText key raw) := by
  unfold State.recordText
  rw [simulation.mode areRelated]
  dsimp only
  split
  · exact areRelated
  · exact simulation.record _ _ areRelated

/-- The end of a statement keeps two states related. -/
theorem flush
    (simulation : Simulation follows related)
    (areRelated : related first second) :
    related first.flush second.flush := by
  unfold State.flush
  rw [simulation.statement areRelated]
  dsimp only
  split <;> exact simulation.withStatement _ (simulation.recordText areRelated _ _)

/-- A piece is added to the statements of related states alike. -/
theorem append
    (simulation : Simulation follows related)
    (areRelated : related first second)
    (piece : Text) :
    related (first.append piece) (second.append piece) := by
  unfold State.append
  rw [simulation.statement areRelated]
  exact simulation.withStatement _ areRelated

/-- A call is read from related states alike, whether it is kept or discarded. -/
theorem readCall
    (simulation : Simulation follows related)
    (areRelated : related first second)
    (closures : Closures) {text other : Text}
    (reads : ReadsAlike follows closures first.frame text other .call) :
    related (first.readCall text) (second.readCall other) := by
  obtain ⟨conditional, kept, skipped⟩ := reads
  unfold State.readCall State.keepCall
  rw [simulation.statement areRelated, simulation.mode areRelated]
  dsimp only
  split
  · next isIf =>
      exact simulation.withStatement _
        (simulation.withRest (conditional (by simpa using isIf)) areRelated)
  · next notIf =>
      split
      · next keepsCalls =>
          obtain ⟨sameCall, leftFollows, sameBrace⟩ := kept ⟨keepsCalls, by simpa using notIf⟩
          have passed := simulation.withRest leftFollows areRelated
          simp only [beq_iff_eq, sameCall, sameBrace]
          split
          · exact simulation.withStatement _ passed
          · exact simulation.withStatement _ (simulation.recordText passed _ _)
      · next skips =>
          exact simulation.withStatement _
            (simulation.withRest (skipped (by simpa using notIf) (by simpa using skips))
              areRelated)

/-- An array literal is read from related states alike. -/
theorem readArrayValue
    (simulation : Simulation follows related)
    (areRelated : related first second)
    {text other : Text}
    (alike : ReadsArrayAlike follows text other) :
    related (first.readArrayValue text) (second.readArrayValue other) := by
  obtain ⟨sameItems, leftFollows⟩ := alike
  unfold State.readArrayValue
  rw [simulation.statement areRelated]
  generalize readArray text = read at sameItems leftFollows ⊢
  generalize readArray other = otherRead at sameItems leftFollows ⊢
  dsimp only at sameItems leftFollows ⊢
  rw [sameItems]
  exact simulation.withStatement _
    (simulation.record _ _ (simulation.withRest leftFollows areRelated))

/-- A key leads related states to related states, where declarations and conditionals are scanned
alike. -/
theorem dispatchKey
    (simulation : Simulation follows related)
    (areRelated : related first second)
    (declares :
      isDeclarationWord first.frame.statement.part = true →
        (readDeclaration second.session.rest).1 = (readDeclaration first.session.rest).1 ∧
          follows (readDeclaration first.session.rest).2 (readDeclaration second.session.rest).2)
    (conditional :
      first.frame.statement.part = ifWord →
        follows (afterConditional first.session.rest) (afterConditional second.session.rest)) :
    related first.dispatchKey second.dispatchKey := by
  unfold State.dispatchKey
  rw [simulation.statement areRelated]
  by_cases isDeclaring : isDeclarationWord first.frame.statement.part = true
  · obtain ⟨sameName, leftFollows⟩ := declares isDeclaring
    simp only [isDeclaring, if_true, sameName]
    have declared := simulation.withRest leftFollows areRelated
    split <;> exact simulation.withStatement _ declared
  · simp only [isDeclaring, Bool.false_eq_true, if_false]
    split
    · next isIf =>
        exact simulation.withStatement _
          (simulation.withRest (conditional (by simpa using isIf)) areRelated)
    · exact simulation.withStatement _ areRelated

/-- A block is entered from related states alike, whatever its key opens. -/
theorem openBlock
    (simulation : Simulation follows related)
    (areRelated : related first second)
    (closures : Closures) {ch otherCh : Char} {rest otherRest : Text}
    (reads :
      ReadsAlike follows closures first.frame (ch :: rest) (otherCh :: otherRest) .blockStart) :
    related (openBlock closures first rest) (openBlock closures second otherRest) := by
  obtain ⟨restsFollow, arrays⟩ := reads
  have waiting :=
    simulation.withPrevious none
      (simulation.withLineStart true
        (simulation.withStatement {} (simulation.withRest restsFollow areRelated)))
  unfold State.openBlock
  rw [simulation.statement areRelated]
  dsimp only
  split
  · next isArray =>
      obtain ⟨sameItems, leftFollows⟩ := arrays isArray
      rw [List.tail_cons, List.tail_cons] at sameItems leftFollows
      generalize readArray rest = read at sameItems leftFollows ⊢
      generalize readArray otherRest = otherRead at sameItems leftFollows ⊢
      rw [sameItems]
      exact simulation.storeClosure _ _ (simulation.withRest leftFollows waiting)
  · exact simulation.enterClosure _ _ _ waiting rfl
  · exact simulation.enterClosure _ _ _ waiting rfl
  · exact simulation.enterBlock _ waiting rfl

/-- A closing brace that finishes neither reading keeps two states related. -/
theorem closeBlock
    (simulation : Simulation follows related)
    (areRelated : related first second)
    {next other : State} {rest otherRest : Text}
    (restsFollow : follows rest otherRest)
    (closed : first.closeBlock rest = .running next)
    (otherClosed : second.closeBlock otherRest = .running other) :
    related next other := by
  have ended := simulation.flush (simulation.withRest restsFollow areRelated)
  unfold State.closeBlock at closed otherClosed
  dsimp only at closed otherClosed
  split at closed
  · next suspended outer around =>
      obtain ⟨otherSuspended, otherOuter, otherAround, resumed⟩ := simulation.resume ended around
      rw [otherAround] at otherClosed
      cases closed
      cases otherClosed
      exact resumed
  · next alone =>
      split at closed
      · next whole =>
          obtain ⟨otherAlone, reported⟩ := simulation.stray ended alone whole
          rw [otherAlone] at otherClosed
          dsimp only at otherClosed
          split at otherClosed
          · cases closed
            cases otherClosed
            exact reported
          · cases otherClosed
      · cases closed

/-- A construct that is no part of a name leads from related states to related states, where both
readings go on. -/
theorem take
    (simulation : Simulation follows related)
    (areRelated : related first second)
    {closures : Closures} {next other : State} {ch : Char} {rest otherRest : Text}
    (notOfName : (first.turn ch rest).isOfName = false)
    (reads :
      ReadsAlike follows closures first.frame (ch :: rest) (ch :: otherRest) (first.turn ch rest))
    (taken : first.take closures ch rest (first.turn ch rest) = .running next)
    (otherTaken : second.take closures ch otherRest (first.turn ch rest) = .running other) :
    related next other := by
  have inLine := simulation.withLineStart false areRelated
  cases turn : first.turn ch rest with
  | namePart | nameEnd | nameStart =>
      rw [turn] at notOfName
      cases notOfName
  | comment =>
      rw [turn] at taken otherTaken reads
      cases taken
      cases otherTaken
      obtain ⟨_, heard⟩ := simulation.hearComment ch (simulation.withRest reads areRelated)
      unfold State.readComment
      dsimp only
      rw [(simulation.hearComment ch areRelated).1]
      split
      · exact simulation.withLineStart _ heard
      · exact heard
  | lineEnd =>
      rw [turn] at taken otherTaken reads
      cases taken
      cases otherTaken
      exact simulation.withPrevious _
        (simulation.withLineStart _
          (simulation.closeQuote (simulation.flush (simulation.withRest reads areRelated))))
  | indentation =>
      rw [turn] at taken otherTaken reads
      cases taken
      cases otherTaken
      exact simulation.withRest reads areRelated
  | commentStart kind =>
      rw [turn] at taken otherTaken reads
      cases taken
      cases otherTaken
      exact simulation.withComment _ (simulation.withRest reads (simulation.flush inLine))
  | quoted =>
      rw [turn] at taken otherTaken reads
      cases taken
      cases otherTaken
      exact simulation.withPrevious _
        (simulation.append (simulation.hearQuote ch (simulation.withRest reads inLine)) _)
  | call =>
      rw [turn] at taken otherTaken reads
      cases taken
      cases otherTaken
      exact simulation.withPrevious _ (simulation.readCall inLine closures reads)
  | array =>
      rw [turn] at taken otherTaken reads
      cases taken
      cases otherTaken
      exact simulation.withPrevious _ (simulation.readArrayValue inLine reads)
  | blockStart =>
      rw [turn] at taken otherTaken reads
      cases taken
      cases otherTaken
      exact simulation.openBlock inLine closures reads
  | blockEnd =>
      rw [turn] at taken otherTaken reads
      exact simulation.closeBlock inLine reads taken otherTaken
  | keyEnd =>
      rw [turn] at taken otherTaken reads
      cases taken
      cases otherTaken
      obtain ⟨restsFollow, declares, conditional⟩ := reads
      have read := simulation.withPrevious (some ch) (simulation.withRest restsFollow inLine)
      unfold State.readKeyEnd
      rw [simulation.statement inLine]
      dsimp only
      split
      · exact read
      · exact simulation.dispatchKey read declares conditional
  | plain =>
      rw [turn] at taken otherTaken reads
      cases taken
      cases otherTaken
      have read := simulation.withPrevious (some ch) (simulation.withRest reads inLine)
      unfold State.readPlain
      rw [simulation.statement inLine]
      dsimp only
      split
      · exact read
      · exact simulation.append read _

end Simulation

/-! ## The next turn -/

/-- Whether a character is the dollar sign that begins a name. -/
def beginsName (state : State) (ch : Char) : Bool :=
  ch == '$' && state.session.interpolation.allowed && state.frame.previous != some '\\'

/-- A dollar sign that is a character like any other begins no name. -/
theorem beginsName_of_dollarIsPlain
    {state : State} {ch : Char}
    (dollar : state.DollarIsPlain ch) :
    state.beginsName ch = false := by
  unfold beginsName
  by_cases isDollar : ch = '$'
  · simp [dollar isDollar]
  · simp [isDollar]

/-- Where no name is being read and none begins, the next construct is no part of a name. -/
theorem isOfName_turn
    {state : State} {ch : Char}
    (noName : state.session.interpolation.form = none)
    (noNameBegins : state.beginsName ch = false)
    (rest : Text) :
    (state.turn ch rest).isOfName = false := by
  have ofStatement : (state.frame.statement.turn ch).isOfName = false := by
    unfold Statement.turn
    repeat' split
    all_goals rfl
  unfold beginsName at noNameBegins
  unfold State.turn
  simp only [noNameBegins, Interpolation.isOpen, noName, Option.isSome_none, Bool.false_eq_true,
    if_false]
  repeat' split
  all_goals first | rfl | exact ofStatement

namespace Simulation

variable {follows : Text → Text → Prop} {related : State → State → Prop} {first second : State}

/-- Related states read the next character as the same thing, if both or neither read it as the
beginning of a name. -/
theorem turn_eq
    (simulation : Simulation follows related)
    (areRelated : related first second)
    {ch : Char} {rest otherRest : Text}
    (sameBeginning : second.beginsName ch = first.beginsName ch)
    (sameComment : commentAt? (ch :: otherRest) = commentAt? (ch :: rest)) :
    second.turn ch otherRest = first.turn ch rest := by
  unfold beginsName at sameBeginning
  unfold State.turn
  unfold Interpolation.isOpen Interpolation.isBraced
  dsimp only
  rw [simulation.commentOpen areRelated, simulation.form areRelated,
    simulation.lineStart areRelated, simulation.quoteOpen areRelated,
    simulation.statement areRelated, sameBeginning, sameComment]

end Simulation

end State

end GradleScript
