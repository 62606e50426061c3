import GradleScript.Proofs.Block.Lines

namespace GradleScript

/-!
# Splicing names into a literal

Where names are interpolated, a dollar sign in a quoted literal begins one.  A braced name is
spliced by its closing brace.  A bare name is spliced by the character after it, which is then
read as if the name had never been there.
-/

/-- Whether a character may stand in a name. -/
def isReferenceChar (ch : Char) : Bool :=
  ch.isAlphanum || ch == '_'

/-- A character of a name ends no name, and separates nothing. -/
theorem endsBareName_of_isReferenceChar
    {ch : Char}
    (isReference : isReferenceChar ch = true) :
    endsBareName ch = false := by
  have other : CharRole.of ch = .other := by
    unfold CharRole.of
    split <;> first | rfl | contradiction
  have notSlash : ch ≠ '/' := ne_of_holds isReference (by decide)
  have notColon : ch ≠ ':' := ne_of_holds isReference (by decide)
  have notSemicolon : ch ≠ ';' := ne_of_holds isReference (by decide)
  simp [endsBareName, isWhitespace_of_other other, isQuote_of_other other, notSlash, notColon,
    notSemicolon]

/-- Whether a character ends a name of a form. -/
def NameForm.endsAt : NameForm → Char → Bool
  | .bare, ch =>
      endsBareName ch
  | .braced, ch =>
      ch == '}' || ch == '\n'

/-- A character that references are made of ends no name. -/
theorem NameForm.endsAt_of_isReferenceChar
    {ch : Char}
    (isReference : isReferenceChar ch = true)
    (form : NameForm) :
    form.endsAt ch = false := by
  cases form with
  | bare =>
      exact endsBareName_of_isReferenceChar isReference
  | braced =>
      have notBrace : ch ≠ '}' := ne_of_holds isReference (by decide)
      have notLineEnd : ch ≠ '\n' := ne_of_holds isReference (by decide)
      simp [NameForm.endsAt, notBrace, notLineEnd]

namespace State

/-- Whether reading on from a first state comes to one that goes on as a second state does. -/
def Joins (closures : Closures) (first second : State) : Prop :=
  ∃ later, Reaches closures first later ∧ later.step closures = second.step closures

/-- A state that is come to is joined. -/
theorem Reaches.joins
    {closures : Closures} {first second : State}
    (reaches : Reaches closures first second) :
    Joins closures first second :=
  ⟨second, reaches, rfl⟩

/-- One joined state leads on to the next. -/
theorem Joins.trans
    {closures : Closures} {first second third : State}
    (joins : Joins closures first second)
    (onward : Joins closures second third) :
    Joins closures first third := by
  obtain ⟨middle, reachesMiddle, middleStep⟩ := joins
  obtain ⟨later, reachesLater, laterStep⟩ := onward
  rcases Relation.ReflTransGen.cases_head reachesLater with same | ⟨next, steps, rest⟩
  · subst same
    exact ⟨middle, reachesMiddle, middleStep.trans laterStep⟩
  · have middleSteps : Steps closures middle next := middleStep.trans steps
    exact ⟨later, (reachesMiddle.tail middleSteps).trans rest, laterStep⟩

/-- A state that has been joined goes on with the step of the state that it joins. -/
theorem Joins.tail
    {closures : Closures} {first second next : State}
    (joins : Joins closures first second)
    (steps : Steps closures second next) :
    Reaches closures first next := by
  obtain ⟨later, reaches, sameStep⟩ := joins
  have laterSteps : Steps closures later next := sameStep.trans steps
  exact reaches.tail laterSteps

/-! ## Names -/

/-- A state inside a name, as far as it has been read. -/
def inName
    (state : State) (form : NameForm) (rest name : Text) (previous : Option Char) : State :=
  ((state.withRest rest).withInterpolation
    { state.session.interpolation with
      form := some form
      heard := name.reverse }).withPrevious previous

/-- A character that does not end a name is no part of anything else. -/
theorem settle_inName
    {state : State} {form : NameForm} {ch : Char}
    (goesOn : form.endsAt ch = false)
    (text name : Text) (previous : Option Char) :
    (state.inName form text name previous).settle ch = state.inName form text name previous := by
  have formShape :
      (state.inName form text name previous).session.interpolation.form = some form :=
    rfl
  unfold settle
  rw [formShape]
  cases form with
  | bare =>
      have goesOnHere : endsBareName ch = false := goesOn
      simp [goesOnHere]
  | braced =>
      have notLineEnd : ch ≠ '\n' := ne_of_beq_false (Bool.or_eq_false_iff.mp goesOn).2
      simp [notLineEnd]

/-- A character that does not end a name is added to it. -/
theorem steps_namePart
    (closures : Closures) {state : State} {ch : Char} (form : NameForm)
    (commentClosed : state.session.comment.isOpen = false)
    (goesOn : form.endsAt ch = false)
    (rest name : Text) (previous : Option Char) :
    Steps closures (state.inName form (ch :: rest) name previous)
      (state.inName form rest (name ++ [ch])
        (if form = .braced then previous else some ch)) := by
  have turnShape :
      (state.inName form (ch :: rest) name previous).turn ch rest = .namePart := by
    have named : (state.inName form (ch :: rest) name previous).session.comment.isOpen = false :=
      commentClosed
    have formShape :
        (state.inName form (ch :: rest) name previous).session.interpolation.form = some form :=
      rfl
    unfold State.turn
    cases form with
    | bare =>
        simp [named, formShape, Interpolation.isOpen, Interpolation.isBraced]
    | braced =>
        have notBrace : ch ≠ '}' := ne_of_beq_false (Bool.or_eq_false_iff.mp goesOn).1
        simp [named, formShape, Interpolation.isOpen, notBrace]
  apply steps_of_turn rfl (settle_inName goesOn _ _ _) turnShape
  cases form <;> simp [take, readNamePart, inName, Interpolation.isBraced, Interpolation.extend,
    withRest, withInterpolation, withPrevious]

/-- The characters of a name are added to it. -/
theorem reaches_name
    (closures : Closures) (state : State) (form : NameForm)
    (commentClosed : state.session.comment.isOpen = false)
    (rest name before : Text)
    (isReference : ∀ ch ∈ name, isReferenceChar ch = true)
    {previous : Option Char}
    (notEscaped : previous ≠ some '\\') :
    ∃ last,
      last ≠ some '\\' ∧
        Reaches closures (state.inName form (name ++ rest) before previous)
          (state.inName form rest (before ++ name) last) := by
  induction name generalizing before previous with
  | nil =>
      rw [List.append_nil]
      exact ⟨previous, notEscaped, .refl⟩
  | cons ch name inductionHypothesis =>
      have chIsName := isReference ch List.mem_cons_self
      have first :=
        steps_namePart closures form commentClosed (form.endsAt_of_isReferenceChar chIsName)
          (name ++ rest) before previous
      have stillNotEscaped : (if form = .braced then previous else some ch) ≠ some '\\' := by
        split
        · exact notEscaped
        · rintro isBackslash
          rw [Option.some.injEq] at isBackslash
          rw [isBackslash] at chIsName
          contradiction
      obtain ⟨last, lastNotEscaping, later⟩ :=
        inductionHypothesis (before ++ [ch])
          (fun other member => isReference other (List.mem_cons_of_mem ch member)) stillNotEscaped
      rw [List.append_assoc] at later
      exact ⟨last, lastNotEscaping, Relation.ReflTransGen.head first later⟩

/-! ## References in a literal -/

/-- A literal in which a resolved name has been spliced is read on with the journal that the
resolution left. -/
def afterName (state : State) (journal : Journal) : State :=
  (state.withJournal journal).withInterpolation state.session.interpolation.closed

/-- The end of a name leaves the state outside comments, names and literals, as it was before the
name. -/
theorem Calm.afterName
    {state : State}
    (calm : state.Calm)
    (journal : Journal) :
    (state.afterName journal).Calm :=
  ⟨calm.comment, rfl, calm.quote⟩

/-- A dollar sign begins a name in a literal where names are read and it is not escaped. -/
theorem turn_eq_nameStart
    {state : State} {rest : Text}
    (commentClosed : state.session.comment.isOpen = false)
    (noName : state.session.interpolation.form = none)
    (quoteOpen : state.session.quote.isOpen = true)
    (inLine : state.frame.lineStart = false)
    (allowed : state.session.interpolation.allowed = true)
    (notEscaped : state.frame.previous ≠ some '\\') :
    state.turn '$' rest = .nameStart := by
  unfold State.turn
  simp [commentClosed, noName, Interpolation.isOpen, quoteOpen, inLine, allowed, notEscaped]

/-- A dollar sign ends no name. -/
theorem settle_dollar
    (state : State) :
    state.settle '$' = state := by
  unfold settle
  split
  · rfl
  · split
    · rfl
    · rfl
    · rfl

/-- A dollar sign begins a name of the form that the text after it has. -/
theorem steps_nameStart
    (closures : Closures) {state : State} {text rest : Text}
    (left : state.session.rest = '$' :: text)
    (starts : state.turn '$' text = .nameStart)
    (form : NameForm)
    (begins :
      form = .braced ∧ text = '{' :: rest ∨ form = .bare ∧ text = rest ∧ rest.head? ≠ some '{') :
    Steps closures state
      ((state.withLineStart false).inName form rest [] state.frame.previous) := by
  refine steps_of_turn left (settle_dollar state) starts ?_
  rcases begins with ⟨rfl, rfl⟩ | ⟨rfl, rfl, notBrace⟩
  · rfl
  · unfold take readNameStart
    dsimp only
    split
    · next name =>
        exact (notBrace rfl).elim
    · rfl

/-- A dollar sign in a literal begins a name. -/
theorem Calm.steps_nameStart
    (closures : Closures) {state : State} {text : Text}
    (calm : state.Calm)
    (allowed : state.session.interpolation.allowed = true)
    (mark : Char) (form : NameForm) (rest : Text)
    (begins :
      form = .braced ∧ text = '{' :: rest ∨ form = .bare ∧ text = rest ∧ rest.head? ≠ some '{')
    (statement : Statement) {previous : Option Char}
    (notEscaped : previous ≠ some '\\') :
    Steps closures (state.inLiteral mark ('$' :: text) statement previous)
      ((state.inLiteral mark rest statement previous).inName form rest [] previous) := by
  have turnShape :
      (state.inLiteral mark ('$' :: text) statement previous).turn '$' text = .nameStart :=
    turn_eq_nameStart calm.comment calm.name rfl rfl allowed notEscaped
  exact State.steps_nameStart closures rfl turnShape form begins

/-- A reference as it is written. -/
def writtenName : NameForm → Text → Text
  | .bare, name =>
      '$' :: name
  | .braced, name =>
      '$' :: '{' :: name ++ ['}']

/-- A braced name is settled by a line end only. -/
theorem settle_bracedName
    {state : State} {ch : Char}
    (braced : state.session.interpolation.form = some .braced)
    (notLineEnd : ch ≠ '\n') :
    state.settle ch = state := by
  unfold settle
  simp [braced, notLineEnd]

/-- A bare name is spliced by the character that ends it. -/
theorem settle_bareName
    {state : State} {ch : Char}
    (commentClosed : state.session.comment.isOpen = false)
    (bare : state.session.interpolation.form = some .bare)
    (ends : endsBareName ch = true) :
    state.settle ch = state.spliceName := by
  unfold settle
  simp [commentClosed, bare, ends]

/-- A closing brace ends a name in braces. -/
theorem turn_eq_nameEnd
    {state : State} {rest : Text}
    (commentClosed : state.session.comment.isOpen = false)
    (braced : state.session.interpolation.form = some .braced) :
    state.turn '}' rest = .nameEnd := by
  unfold State.turn
  simp [commentClosed, braced, Interpolation.isOpen, Interpolation.isBraced]

/-- Inside a name the characters that have been read of it are its own. -/
@[simp] theorem name_inName
    (state : State) (form : NameForm) (rest name : Text) (previous : Option Char) :
    (state.inName form rest name previous).session.interpolation.name = name := by
  simp [inName, withPrevious, withInterpolation, Interpolation.name]

/-- A name that has been read to its end is written as the whole reference. -/
theorem written_inName
    (state : State) (form : NameForm) (rest name : Text) (previous : Option Char) :
    (state.inName form rest name previous).session.interpolation.written =
      writtenName form name := by
  unfold Interpolation.written Interpolation.writtenSoFar
  rw [name_inName]
  cases form <;> rfl

/-- A name that has been read to its end is spliced with what it resolves to. -/
theorem spliceName_inName
    {state : State} {form : NameForm} {name value : Text} {journal : Journal}
    (mark : Char)
    (resolved : state.session.journal.resolve name (writtenName form name) = (value, journal))
    (text rest : Text) (statement : Statement) (previous last : Option Char) :
    ((state.inLiteral mark text statement previous).inName form rest name last).spliceName =
      (state.afterName journal).inLiteral mark rest (statement.append value) last := by
  have resolvedInName :
      ((state.inLiteral mark text statement previous).inName form rest name
        last).session.journal.resolve name (writtenName form name) = (value, journal) :=
    resolved
  unfold spliceName
  dsimp only
  rw [name_inName, written_inName, resolvedInName]
  rfl

/-- A braced reference in a literal is spliced. -/
theorem Calm.reaches_bracedName
    (closures : Closures) {state : State} {name text : Text} {journal : Journal}
    (calm : state.Calm)
    (mark : Char)
    (allowed : state.session.interpolation.allowed = true)
    (isReference : ∀ ch ∈ name, isReferenceChar ch = true)
    (resolved : state.session.journal.resolve name (writtenName .braced name) = (text, journal))
    (rest : Text) (statement : Statement) {previous : Option Char}
    (notEscaped : previous ≠ some '\\') :
    Reaches closures
      (state.inLiteral mark ('$' :: '{' :: name ++ '}' :: rest) statement previous)
      ((state.afterName journal).inLiteral mark rest (statement.append text) (some '}')) := by
  have begins :=
    calm.steps_nameStart closures allowed mark .braced (name ++ '}' :: rest) (.inl ⟨rfl, rfl⟩)
      statement notEscaped
  obtain ⟨last, _, named⟩ :=
    reaches_name closures (state.inLiteral mark (name ++ '}' :: rest) statement previous) .braced
      calm.comment ('}' :: rest) name [] isReference notEscaped
  have ends :
      Steps closures
        ((state.inLiteral mark (name ++ '}' :: rest) statement previous).inName .braced
          ('}' :: rest) name last)
        ((state.afterName journal).inLiteral mark rest (statement.append text) (some '}')) := by
    have turnShape :
        ((state.inLiteral mark (name ++ '}' :: rest) statement previous).inName .braced
          ('}' :: rest) name last).turn '}' rest = .nameEnd :=
      turn_eq_nameEnd calm.comment rfl
    apply steps_of_turn rfl (settle_bracedName rfl (by decide)) turnShape
    have spliced :=
      spliceName_inName mark resolved (name ++ '}' :: rest) ('}' :: rest) statement
        previous last
    unfold take
    dsimp only
    rw [spliced]
    rfl
  exact Relation.ReflTransGen.head begins (named.tail ends)

/-- A bare reference in a literal is spliced by the character after it. -/
theorem Calm.joins_bareName
    (closures : Closures) {state : State} {terminator : Char} {name text : Text}
    {journal : Journal}
    (calm : state.Calm)
    (mark : Char)
    (allowed : state.session.interpolation.allowed = true)
    (isReference : ∀ ch ∈ name, isReferenceChar ch = true)
    (notEmpty : name ≠ [])
    (resolved : state.session.journal.resolve name (writtenName .bare name) = (text, journal))
    (ends : endsBareName terminator = true)
    (rest : Text) (statement : Statement) {previous : Option Char}
    (notEscaped : previous ≠ some '\\') :
    ∃ last,
      last ≠ some '\\' ∧
        Joins closures
          (state.inLiteral mark ('$' :: name ++ terminator :: rest) statement previous)
          ((state.afterName journal).inLiteral mark (terminator :: rest) (statement.append text)
            last) := by
  have notBrace : (name ++ terminator :: rest).head? ≠ some '{' := by
    cases name with
    | nil =>
        exact (notEmpty rfl).elim
    | cons ch name =>
        have chIsReference := isReference ch List.mem_cons_self
        rintro isBrace
        rw [List.cons_append, List.head?_cons, Option.some.injEq] at isBrace
        rw [isBrace] at chIsReference
        contradiction
  have begins :=
    calm.steps_nameStart closures allowed mark .bare (name ++ terminator :: rest)
      (.inr ⟨rfl, rfl, notBrace⟩) statement notEscaped
  obtain ⟨last, lastNotEscaping, named⟩ :=
    reaches_name closures (state.inLiteral mark (name ++ terminator :: rest) statement previous)
      .bare calm.comment (terminator :: rest) name [] isReference notEscaped
  refine ⟨last, lastNotEscaping, _, Relation.ReflTransGen.head begins named, ?_⟩
  have settled :
      ((state.inLiteral mark (name ++ terminator :: rest) statement previous).inName .bare
        (terminator :: rest) name last).settle terminator =
        (state.afterName journal).inLiteral mark (terminator :: rest) (statement.append text)
          last := by
    rw [← spliceName_inName mark resolved (name ++ terminator :: rest) (terminator :: rest)
      statement previous last]
    exact settle_bareName calm.comment rfl ends
  have settledSpliced :
      ((state.afterName journal).inLiteral mark (terminator :: rest) (statement.append text)
        last).settle terminator =
        (state.afterName journal).inLiteral mark (terminator :: rest) (statement.append text)
          last :=
    settle_of_noName rfl
  change
    ((state.inLiteral mark (name ++ terminator :: rest) statement previous).inName .bare
      (terminator :: rest) name last).advance closures terminator rest =
        ((state.afterName journal).inLiteral mark (terminator :: rest) (statement.append text)
          last).advance closures terminator rest
  unfold advance
  dsimp only
  rw [settled, settledSpliced]

end State

end GradleScript
