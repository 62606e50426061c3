import GradleScript.Proofs.Scan.Enclosed
import GradleScript.Proofs.Scan.Returns
import GradleScript.Proofs.Script.Ending

namespace GradleScript

/-!
# How far a body extends

Where there are no literals, comments, names and brackets but braces, a body ends where a count of
the braces says.  The skipping of a body counts them.  The reading counts them as well, in the
bodies around the place where it stands, except that it passes over some text uncounted: the rest of
a declaration, and the branches of a conditional.  Where the text passed over closes the braces that
it opens, and no others, reading and skipping end at the same place.
-/

/-! ## Counting braces -/

/-- What is left after the brace that closes a body in which so many further bodies are open. -/
def afterBody : Nat → Text → Text
  | _, [] =>
      []
  | depth, ch :: rest =>
      if ch = '{' then
        afterBody (depth + 1) rest
      else if ch = '}' then
        if depth = 0 then rest else afterBody (depth - 1) rest
      else
        afterBody depth rest

/-- Whether a text closes so many open bodies, and all those that it opens itself, but no others. -/
def closesBodies : Nat → Text → Bool
  | depth, [] =>
      depth == 0
  | depth, ch :: rest =>
      if ch = '{' then
        closesBodies (depth + 1) rest
      else if ch = '}' then
        depth != 0 && closesBodies (depth - 1) rest
      else
        closesBodies depth rest

/-- A text that closes the bodies that it opens can be passed over. -/
theorem afterBody_append
    {inner : Nat} {passed : Text}
    (closes : closesBodies inner passed = true)
    (depth : Nat) (rest : Text) :
    afterBody (depth + inner) (passed ++ rest) = afterBody depth rest := by
  induction passed generalizing inner with
  | nil =>
      have noneOpen : inner = 0 := by simpa [closesBodies] using closes
      rw [noneOpen]
      rfl
  | cons ch passed inductionHypothesis =>
      rw [closesBodies] at closes
      rw [List.cons_append, afterBody]
      by_cases isOpen : ch = '{'
      · rw [if_pos isOpen] at closes ⊢
        exact inductionHypothesis closes
      · rw [if_neg isOpen] at closes ⊢
        by_cases isClose : ch = '}'
        · rw [if_pos isClose, Bool.and_eq_true, bne_iff_ne] at closes
          obtain ⟨someOpen, closesLater⟩ := closes
          rw [if_pos isClose, if_neg (by omega), Nat.add_sub_assoc (by omega)]
          exact inductionHypothesis closesLater
        · rw [if_neg isClose] at closes ⊢
          exact inductionHypothesis closes

/-- Only braces are counted. -/
theorem afterBody_of_noBrace
    {ch : Char}
    (notOpen : ch ≠ '{')
    (notClose : ch ≠ '}')
    (depth : Nat) (rest : Text) :
    afterBody depth (ch :: rest) = afterBody depth rest := by
  rw [afterBody, if_neg notOpen, if_neg notClose]

/-- The brace that closes a body takes at least one character. -/
theorem length_afterBody_cons
    (depth : Nat) (ch : Char) (rest : Text) :
    (afterBody depth (ch :: rest)).length ≤ rest.length := by
  induction rest generalizing depth ch with
  | nil =>
      rw [afterBody]
      split
      · exact Nat.le_refl _
      · split
        · split <;> exact Nat.le_refl _
        · exact Nat.le_refl _
  | cons next rest inductionHypothesis =>
      have later (depth : Nat) : (afterBody depth (next :: rest)).length ≤ (next :: rest).length :=
        (inductionHypothesis depth next).trans (Nat.le_succ _)
      rw [afterBody]
      split
      · exact later _
      · split
        · split
          · exact Nat.le_refl _
          · exact later _
        · exact later _

/-! ## Skipping counts braces -/

/-- Whether a character can neither begin nor escape a literal, a comment or a name, and is no
bracket but a brace. -/
def isCounted (ch : Char) : Bool :=
  !(['$', '"', '\'', '\\', '/', '[', '('].contains ch)

/-- A character that is counted is no quote. -/
theorem isQuote_of_isCounted
    {ch : Char}
    (counted : isCounted ch = true) :
    isQuote ch = false := by
  rw [Bool.eq_false_iff]
  intro quotes
  unfold isQuote CharRole.of at quotes
  split at quotes <;> contradiction

/-- A character that is counted begins no comment. -/
theorem ne_slash_of_isCounted
    {ch : Char}
    (counted : isCounted ch = true) :
    ch ≠ '/' := by
  rintro rfl
  contradiction

/-- Outside literals and comments skipping counts the braces. -/
theorem remaining_braces_cons
    {ch : Char}
    (counted : isCounted ch = true)
    (depth : Nat) (previous : Option Char) (rest : Text) :
    braces.remaining (depth + 1 : Nat) {} previous (ch :: rest) =
      if ch = '{' then
        braces.remaining (depth + 1 + 1 : Nat) {} (some ch) rest
      else if ch = '}' then
        if depth = 0 then rest else braces.remaining (depth : Nat) {} (some ch) rest
      else
        braces.remaining (depth + 1 : Nat) {} (some ch) rest := by
  have noComment := commentAt?_of_ne_slash (ne_slash_of_isCounted counted) rest
  have below : ((depth + 1 : Nat) : Int) - 1 = depth := by omega
  have isLast : ((depth + 1 : Nat) : Int) = 1 ↔ depth = 0 := by omega
  rw [Brackets.remaining_of_noComment braces _ previous (.inr noComment)]
  simp only [isQuote_of_isCounted counted, Bool.or_self, Bool.false_eq_true, if_false, braces,
    beq_iff_eq, below, isLast]
  rfl

/-- A body that is skipped exactly ends where its braces are closed. -/
theorem afterBody_of_remaining
    {body : Text}
    (counted : ∀ ch ∈ body, isCounted ch = true)
    {rest : Text}
    (depth : Nat)
    (previous : Option Char)
    (skipped : braces.remaining (depth + 1 : Nat) {} previous (body ++ '}' :: rest) = rest) :
    afterBody depth (body ++ '}' :: rest) = rest := by
  induction body generalizing depth previous with
  | nil =>
      rw [List.nil_append, remaining_braces_cons (by decide), if_neg (by decide), if_pos rfl]
        at skipped
      rw [List.nil_append, afterBody, if_neg (by decide), if_pos rfl]
      by_cases outermost : depth = 0
      · rw [if_pos outermost]
      · rw [if_neg outermost] at skipped ⊢
        -- More would be skipped than the brace, so nothing comes after it.
        cases rest with
        | nil =>
            rfl
        | cons ch rest =>
            have shorter := (braces.remaining_cons_suffix depth {} (some '}') ch rest).length_le
            rw [skipped, List.length_cons] at shorter
            omega
  | cons ch body inductionHypothesis =>
      obtain ⟨firstCounted, bodyCounted⟩ := List.forall_mem_cons.mp counted
      rw [List.cons_append, remaining_braces_cons firstCounted] at skipped
      rw [List.cons_append, afterBody]
      by_cases isOpen : ch = '{'
      · rw [if_pos isOpen] at skipped ⊢
        exact inductionHypothesis bodyCounted (depth + 1) _ skipped
      · rw [if_neg isOpen] at skipped ⊢
        by_cases isClose : ch = '}'
        · rw [if_pos isClose] at skipped ⊢
          by_cases outermost : depth = 0
          · -- The skipping would end before the end of the body.
            rw [if_pos outermost] at skipped
            have longer := congrArg List.length skipped
            rw [List.length_append, List.length_cons] at longer
            omega
          · obtain ⟨outer, rfl⟩ := Nat.exists_eq_add_one_of_ne_zero outermost
            rw [if_neg outermost] at skipped ⊢
            exact inductionHypothesis bodyCounted outer _ skipped
        · rw [if_neg isClose] at skipped ⊢
          exact inductionHypothesis bodyCounted depth _ skipped

namespace State

/-! ## Reading counts braces -/

/-- Whether a declaration or a conditional that the next character begins passes over text which
closes the bodies that it opens, and no others. -/
def passesWholeHere (state : State) : Bool :=
  match state.session.rest with
  | [] =>
      true
  | ch :: rest =>
      let word := state.frame.statement.part
      state.turn ch rest != .keyEnd ||
        (!isDeclarationWord word || closesBodies 0 (takenFrom rest (readDeclaration rest).2)) &&
          (word != ifWord || closesBodies 0 (takenFrom rest (afterConditional rest)))

/-- Whether each declaration and each conditional that is read from a state on passes over text
which closes the bodies that it opens, and no others. -/
def PassesWhole (closures : Closures) (state : State) : Prop :=
  ∀ later, Reaches closures state later → later.passesWholeHere = true

/-- Whatever is passed over from the next state on is passed over from the state on. -/
theorem PassesWhole.steps
    {closures : Closures} {state next : State}
    (passesWhole : state.PassesWhole closures)
    (steps : Steps closures state next) :
    next.PassesWhole closures :=
  fun later reaches => passesWhole later (Relation.ReflTransGen.head steps reaches)

/-- What is passed over after a key closes the bodies that it opens. -/
theorem closesBodies_of_passesWholeHere
    {state : State} {ch : Char} {rest : Text}
    (here : state.passesWholeHere = true)
    (text : state.session.rest = ch :: rest)
    (turn : state.turn ch rest = .keyEnd) :
    (isDeclarationWord state.frame.statement.part = true →
        closesBodies 0 (takenFrom rest (readDeclaration rest).2) = true) ∧
      (state.frame.statement.part = ifWord →
        closesBodies 0 (takenFrom rest (afterConditional rest)) = true) := by
  unfold passesWholeHere at here
  rw [text] at here
  simp only [turn, bne_self_eq_false, Bool.false_or, Bool.and_eq_true, Bool.or_eq_true,
    Bool.not_eq_true', bne_iff_ne] at here
  obtain ⟨declares, conditional⟩ := here
  constructor
  · intro isDeclaration
    exact declares.resolve_left (by simp [isDeclaration])
  · intro isIf
    exact conditional.resolve_left (not_not_intro isIf)

/-- What a counted character is read as, outside literals, comments and names. -/
theorem Calm.turn_of_isCounted
    {state : State} {ch : Char}
    (calm : state.Calm)
    (counted : isCounted ch = true)
    (rest : Text) :
    state.turn ch rest =
      if ch = '\n' then
        .lineEnd
      else if (state.frame.lineStart && isWhitespace ch) = true then
        .indentation
      else if ch = '{' then
        .blockStart
      else if ch = '}' then
        .blockEnd
      else if (state.frame.statement.inKey && isDelimiter ch) = true then
        .keyEnd
      else
        .plain := by
  have notDollar : ch ≠ '$' := by
    rintro rfl
    contradiction
  have notParenthesis : ch ≠ '(' := by
    rintro rfl
    contradiction
  have notBracket : ch ≠ '[' := by
    rintro rfl
    contradiction
  unfold State.turn Statement.turn
  simp [calm.comment, calm.quote, calm.name, Interpolation.isOpen, notDollar, notParenthesis,
    notBracket, isQuote_of_isCounted counted,
    commentAt?_of_ne_slash (ne_slash_of_isCounted counted) rest]

/-- The end of a statement leaves the state outside comments, names and literals. -/
theorem Calm.flush
    {state : State}
    (calm : state.Calm) :
    state.flush.Calm :=
  calm.of_contexts (contexts_flush state)

/-- Outside names the next character ends none before it is taken. -/
theorem Calm.advance_eq
    {state : State} {ch : Char}
    (calm : state.Calm)
    (closures : Closures) (rest : Text) :
    state.advance closures ch rest = state.take closures ch rest (state.turn ch rest) := by
  unfold advance
  rw [settle_of_noName calm.name]

/-- An opening brace enters a body. -/
theorem Calm.entered
    {state next : State} {rest : Text}
    (calm : state.Calm)
    (taken : state.take Closures.standard '{' rest .blockStart = .running next) :
    next.Calm ∧ next.session.rest = rest ∧ next.outer.length = state.outer.length + 1 := by
  cases taken
  unfold openBlock
  dsimp only
  split
  · next isArray =>
      exact (Closures.find?_standard_ne_array _ isArray).elim
  · exact ⟨⟨calm.comment, calm.name, calm.quote⟩, rfl, rfl⟩
  · exact ⟨⟨calm.comment, calm.name, calm.quote⟩, rfl, rfl⟩
  · exact ⟨⟨calm.comment, calm.name, calm.quote⟩, rfl, rfl⟩

/-- A closing brace leaves a body, if there is one around it. -/
theorem Calm.left
    {state next : State} {rest : Text}
    (calm : state.Calm)
    (notWhole : state.wholeScript = false)
    (closed : (state.withLineStart false).closeBlock rest = .running next) :
    next.Calm ∧ next.session.rest = rest ∧ next.outer.length + 1 = state.outer.length := by
  have settled : state.settle '}' = state := settle_of_noName calm.name
  have closedCalm : (state.closedAt '}' rest).Calm := by
    unfold closedAt
    rw [settled]
    exact Calm.flush ⟨calm.comment, calm.name, calm.quote⟩
  have restAfter := rest_closeBlock closed
  cases around : (state.closedAt '}' rest).outer with
  | nil =>
      have alone := closeBlock_of_alone around
      rw [settled, closed, notWhole] at alone
      cases alone
  | cons suspended outer =>
      have resumed := closeBlock_of_around around
      rw [settled, closed] at resumed
      cases resumed
      exact ⟨closedCalm.resume suspended outer, restAfter, length_outer_outOf around⟩

/-- A closing brace finishes a body around which there is no other. -/
theorem Calm.finished
    {state : State} {rest : Text} {session : Session} {entries : Mapping}
    (calm : state.Calm)
    (notWhole : state.wholeScript = false)
    (closed : (state.withLineStart false).closeBlock rest = .closed session entries) :
    state.outer = [] ∧ session.rest = rest := by
  have settled : state.settle '}' = state := settle_of_noName calm.name
  cases around : (state.closedAt '}' rest).outer with
  | cons suspended outer =>
      have resumed := closeBlock_of_around around
      rw [settled, closed] at resumed
      cases resumed
  | nil =>
      have alone := closeBlock_of_alone around
      rw [settled, closed, notWhole] at alone
      cases alone
      exact ⟨(outer_closedAt_eq_nil_iff state '}' rest).mp around, rest_closedAt state '}' rest⟩

/-- A key that is dispatched passes over nothing but the rest of a declaration, or a conditional. -/
theorem Calm.dispatchKey
    {state : State}
    (calm : state.Calm)
    (declares :
      isDeclarationWord state.frame.statement.part = true →
        closesBodies 0 (takenFrom state.session.rest (readDeclaration state.session.rest).2) =
          true)
    (conditional :
      state.frame.statement.part = ifWord →
        closesBodies 0 (takenFrom state.session.rest (afterConditional state.session.rest)) =
          true) :
    state.dispatchKey.Calm ∧
      ∃ passed,
        state.session.rest = passed ++ state.dispatchKey.session.rest ∧
          closesBodies 0 passed = true := by
  have takes {remaining : Text} (atEnd : remaining <:+ state.session.rest)
      (closes : closesBodies 0 (takenFrom state.session.rest remaining) = true) :
      ∃ passed, state.session.rest = passed ++ remaining ∧ closesBodies 0 passed = true :=
    ⟨_, (takenFrom_append atEnd).symm, closes⟩
  unfold State.dispatchKey
  dsimp only
  split
  · next isDeclaration =>
      have declared := takes (readDeclaration_suffix _) (declares isDeclaration)
      split <;> exact ⟨⟨calm.comment, calm.name, calm.quote⟩, declared⟩
  · split
    · next isIf =>
        exact
          ⟨⟨calm.comment, calm.name, calm.quote⟩,
            takes (afterConditional_suffix _) (conditional (by simpa using isIf))⟩
    · exact ⟨⟨calm.comment, calm.name, calm.quote⟩, [], rfl, rfl⟩

/-- Any other character is read without leaving the body, and what is passed over closes the bodies
that it opens. -/
theorem Calm.stays
    {closures : Closures} {state next : State} {ch : Char} {rest : Text}
    (calm : state.Calm)
    (counted : isCounted ch = true)
    (notOpen : ch ≠ '{')
    (notClose : ch ≠ '}')
    (text : state.session.rest = ch :: rest)
    (passesWhole : state.PassesWhole closures)
    (taken : state.take closures ch rest (state.turn ch rest) = .running next) :
    next.Calm ∧
      next.outer.length = state.outer.length ∧
        ∃ passed, rest = passed ++ next.session.rest ∧ closesBodies 0 passed = true := by
  have kinds :
      state.turn ch rest = .lineEnd ∨ state.turn ch rest = .indentation ∨
        state.turn ch rest = .keyEnd ∨ state.turn ch rest = .plain := by
    rw [calm.turn_of_isCounted counted rest, if_neg notOpen, if_neg notClose]
    (repeat' split) <;> simp
  have inBody : next.surroundings = state.surroundings := by
    refine surroundings_take ?_ ?_ taken <;> rcases kinds with kind | kind | kind | kind <;>
      rw [kind] <;> simp
  have sameDepth := length_outer_of_surroundings inBody
  rcases kinds with isLineEnd | isIndentation | isKeyEnd | isPlain
  · rw [isLineEnd] at taken
    cases taken
    have flushed : (state.withRest rest).flush.Calm :=
      Calm.flush ⟨calm.comment, calm.name, calm.quote⟩
    have restAfter : (state.readLineEnd ch rest).session.rest = rest :=
      rest_flush (state.withRest rest)
    exact ⟨⟨flushed.comment, flushed.name, rfl⟩, sameDepth, [], restAfter.symm, rfl⟩
  · rw [isIndentation] at taken
    cases taken
    exact ⟨⟨calm.comment, calm.name, calm.quote⟩, sameDepth, [], rfl, rfl⟩
  · obtain ⟨declares, conditional⟩ :=
      closesBodies_of_passesWholeHere (passesWhole state .refl) text isKeyEnd
    rw [isKeyEnd] at taken
    cases taken
    have passed :
        (((state.withLineStart false).withRest rest).withPrevious (some ch)).Calm :=
      ⟨calm.comment, calm.name, calm.quote⟩
    refine ⟨?_, sameDepth, ?_⟩
    · unfold readKeyEnd
      dsimp only
      split
      · exact passed
      · exact (passed.dispatchKey declares conditional).1
    · unfold readKeyEnd
      dsimp only
      split
      · exact ⟨[], rfl, rfl⟩
      · exact (passed.dispatchKey declares conditional).2
  · rw [isPlain] at taken
    cases taken
    refine ⟨?_, sameDepth, [], ?_, rfl⟩
    · unfold readPlain
      dsimp only
      split <;> exact ⟨calm.comment, calm.name, calm.quote⟩
    · unfold readPlain
      dsimp only
      split <;> rfl

/-! ## Where the reading ends -/

/-- Finishing the open bodies reads nothing more. -/
theorem rest_unwind
    (state : State) :
    state.unwind.1.rest = state.session.rest := by
  induction depth : state.outer.length generalizing state with
  | zero =>
      rw [unwind_of_alone (List.length_eq_zero_iff.mp depth)]
  | succ less inductionHypothesis =>
      obtain ⟨suspended, outer, around⟩ := List.exists_cons_of_length_eq_add_one depth
      have shallower : (state.resume suspended outer).outer.length = less := by
        rw [length_outer_resume]
        simpa [around] using depth
      rw [unwind_of_around around, inductionHypothesis _ shallower, rest_resume]

/-- Whether a text is the end of a body with its brace and what follows, or nothing. -/
def InExtent (body rest text : Text) : Prop :=
  text = [] ∨ ∃ left, left <:+ body ∧ text = left ++ '}' :: rest

/-- What is longer than the text after a body stands in the body. -/
theorem InExtent.of_suffix
    {body rest text left : Text}
    (stands : InExtent body rest text)
    (atEnd : left <:+ text)
    (longer : left ≠ [] → rest.length < left.length) :
    InExtent body rest left := by
  by_cases nothing : left = []
  · exact .inl nothing
  rcases stands with rfl | ⟨before, inBody, rfl⟩
  · exact .inl (List.suffix_nil.mp atEnd)
  · right
    have brace : '}' :: rest <:+ left :=
      List.suffix_of_suffix_length_le (List.suffix_append before _) atEnd (longer nothing)
    obtain ⟨part, rfl⟩ := brace
    obtain ⟨passed, shape⟩ := atEnd
    rw [← List.append_assoc] at shape
    have inBefore : part <:+ before := ⟨passed, List.append_cancel_right shape⟩
    exact ⟨part, inBefore.trans inBody, rfl⟩

/-- Where such a body goes on, it does so with a character that braces are counted by. -/
theorem InExtent.isCounted
    {body rest text following : Text} {ch : Char}
    (stands : InExtent body rest text)
    (counted : ∀ ch ∈ body, isCounted ch = true)
    (goesOn : text = ch :: following) :
    isCounted ch = true := by
  rcases stands with nothing | ⟨before, inBody, shape⟩
  · cases goesOn.symm.trans nothing
  · cases before with
    | nil =>
        obtain ⟨rfl, _⟩ := List.cons.inj (goesOn.symm.trans shape)
        decide
    | cons first before =>
        obtain ⟨rfl, _⟩ := List.cons.inj (goesOn.symm.trans shape)
        exact counted ch (inBody.subset List.mem_cons_self)

/-- A construct leaves the braces closed where they were, or closes the last one of them there. -/
theorem Calm.step_extent
    {state : State} {ch : Char} {following rest : Text}
    (calm : state.Calm)
    (notWhole : state.wholeScript = false)
    (chCounted : isCounted ch = true)
    (text : state.session.rest = ch :: following)
    (extent : afterBody state.outer.length (ch :: following) = rest)
    (passesWhole : state.PassesWhole Closures.standard) :
    (∃ next,
        Steps Closures.standard state next ∧ next.Calm ∧
          afterBody next.outer.length next.session.rest = rest) ∨
      ∃ session entries,
        state.step Closures.standard = .closed session entries ∧ session.rest = rest := by
  by_cases isOpen : ch = '{'
  · subst isOpen
    have turn : state.turn '{' following = .blockStart := by
      rw [calm.turn_of_isCounted chCounted]
      simp [isWhitespace, CharRole.of]
    have taken :
        state.take Closures.standard '{' following .blockStart =
          .running (openBlock Closures.standard (state.withLineStart false) following) :=
      rfl
    obtain ⟨nextCalm, nextRest, deeper⟩ := calm.entered taken
    refine .inl ⟨_, calm.steps text turn taken, nextCalm, ?_⟩
    rw [nextRest, deeper]
    exact extent
  by_cases isClose : ch = '}'
  · subst isClose
    have turn : state.turn '}' following = .blockEnd := by
      rw [calm.turn_of_isCounted chCounted]
      simp [isWhitespace, CharRole.of]
    rw [afterBody, if_neg isOpen, if_pos rfl] at extent
    cases closed : (state.withLineStart false).closeBlock following with
    | running next =>
        obtain ⟨nextCalm, nextRest, shallower⟩ := calm.left notWhole closed
        refine .inl ⟨next, calm.steps text turn closed, nextCalm, ?_⟩
        rw [if_neg (by omega)] at extent
        rw [nextRest, ← extent, ← shallower]
        rfl
    | closed session entries =>
        obtain ⟨alone, restAfter⟩ := calm.finished notWhole closed
        have stepShape : state.step Closures.standard = .closed session entries := by
          unfold step
          rw [text]
          dsimp only
          rw [calm.advance_eq, turn]
          exact closed
        rw [alone, List.length_nil, if_pos rfl] at extent
        exact .inr ⟨session, entries, stepShape, restAfter.trans extent⟩
  · have notBlockEnd : state.turn ch following ≠ .blockEnd := by
      rw [calm.turn_of_isCounted chCounted, if_neg isOpen, if_neg isClose]
      (repeat' split) <;> simp
    obtain ⟨next, taken⟩ :=
      exists_take_eq_running Closures.standard state ch following notBlockEnd
    obtain ⟨nextCalm, sameDepth, passed, shape, closes⟩ :=
      calm.stays chCounted isOpen isClose text passesWhole taken
    refine .inl ⟨next, calm.steps text rfl taken, nextCalm, ?_⟩
    have passedOver := afterBody_append closes state.outer.length next.session.rest
    rw [afterBody_of_noBrace isOpen isClose, shape] at extent
    rw [sameDepth, ← passedOver]
    exact extent

/-- The reading of a body ends where its braces are closed. -/
theorem Calm.rest_run
    {state : State} {body rest : Text}
    (calm : state.Calm)
    (notWhole : state.wholeScript = false)
    (counted : ∀ ch ∈ body, isCounted ch = true)
    (stands : InExtent body rest state.session.rest)
    (extent : afterBody state.outer.length state.session.rest = rest)
    (passesWhole : state.PassesWhole Closures.standard) :
    (state.run Closures.standard).1.rest = rest := by
  induction left : state.session.rest.length using Nat.strongRecOn generalizing state with
  | ind length inductionHypothesis =>
    cases text : state.session.rest with
    | nil =>
        rw [run_eq_of_reaches_end .refl text, finish_of_noName calm.name, rest_unwind, rest_flush,
          text]
        rw [text] at extent
        exact extent
    | cons ch following =>
        rcases calm.step_extent notWhole (stands.isCounted counted text) text (text ▸ extent)
            passesWhole with
          ⟨next, steps, nextCalm, nextExtent⟩ | ⟨session, entries, closed, atRest⟩
        · rw [steps.run_eq]
          refine inductionHypothesis _ (left ▸ steps.length_rest_lt) nextCalm
            (steps.wholeScript_eq.trans notWhole) ?_ nextExtent (passesWhole.steps steps) rfl
          apply stands.of_suffix steps.rest_suffix
          intro nonempty
          obtain ⟨first, others, shape⟩ := List.exists_cons_of_ne_nil nonempty
          rw [shape] at nextExtent ⊢
          have shorter := length_afterBody_cons next.outer.length first others
          rw [nextExtent] at shorter
          exact Nat.lt_succ_of_le shorter
        · rw [run_eq_of_closed closed]
          exact atRest

end State

/--
Reading a body and skipping it end at the same place, where it has no literals, comments, names and
brackets but braces.  If a body between braces is skipped exactly, then reading it, from just after
its opening brace, ends just after its closing brace, whatever comes next; the text that a
declaration or a conditional in the body passes over has to close the braces that it opens, and no
others.
-/
theorem readBody_rest_of_skipped
    (body rest : Text)
    (counted : ∀ ch ∈ body, isCounted ch = true)
    (skipped : braces.after ('{' :: (body ++ '}' :: rest)) = rest)
    (session : Session)
    (text : session.rest = body ++ '}' :: rest)
    (commentClosed : session.comment.isOpen = false)
    (quoteClosed : session.quote.isOpen = false)
    (noName : session.interpolation.form = none)
    (mode : Mode)
    (passesWhole : (State.start session mode false).PassesWhole Closures.standard) :
    (session.readBody Closures.standard mode false).1.rest = rest := by
  have inside :
      braces.remaining (0 + 1 : Nat) {} (some '{') (body ++ '}' :: rest) = rest := by
    rw [Brackets.after_of_opens rfl rfl] at skipped
    rw [Brackets.remaining_of_noComment braces _ none
      (.inr (commentAt?_of_ne_slash (by decide) _))] at skipped
    exact skipped
  have calm : (State.start session mode false).Calm := ⟨commentClosed, noName, quoteClosed⟩
  have extent : afterBody 0 session.rest = rest := by
    rw [text]
    exact afterBody_of_remaining counted 0 (some '{') inside
  exact calm.rest_run rfl counted (.inr ⟨body, List.suffix_rfl, text⟩) extent passesWhole

/-- A body with a declaration, a conditional and a nested block ends at its brace. -/
theorem readBody_rest_of_skipped_declarations :
    let body := "\ndef x\nif y z\nb \x7b c 3 \x7d\nint w = 4 ".toList
    let rest := "\nd 5".toList
    let session : Session := Session.ofText (body ++ '}' :: rest) true {}
    braces.after ('{' :: (body ++ '}' :: rest)) = rest ∧
      (State.start session {} false).PassesWhole Closures.standard ∧
      (session.readBody Closures.standard {} false).1.rest = rest := by
  intro body rest session
  have skipped : braces.after ('{' :: (body ++ '}' :: rest)) = rest := by
    decide +kernel
  have always :
      State.alwaysWithin State.passesWholeHere Closures.standard 60
        (State.start session {} false) = true := by
    decide +kernel
  have passesWhole : (State.start session {} false).PassesWhole Closures.standard :=
    fun _ => State.holds_of_alwaysWithin always
  exact
    ⟨skipped, passesWhole,
      readBody_rest_of_skipped body rest (by decide) skipped session rfl rfl rfl rfl {}
        passesWhole⟩

/-- A declaration that ends with its body passes over the brace of the body: skipping leaves the
line end after the body, and reading goes on to the end of the text. -/
theorem readBody_declarationBeforeBrace :
    let body := "def x".toList
    let rest := "\n".toList
    let session : Session := Session.ofText (body ++ '}' :: rest) true {}
    (∀ ch ∈ body, isCounted ch = true) ∧
      braces.after ('{' :: (body ++ '}' :: rest)) = rest ∧
      (session.readBody Closures.standard {} false).1.rest ≠ rest := by
  intro body rest session
  have ended : (session.readBody Closures.standard {} false).1.rest = [] :=
    (congrArg (fun read => read.1.rest)
      (State.run_of_readOn 20 (by decide +kernel) (by decide +kernel)
        (List.isEmpty_iff.mp (by decide +kernel)))).trans (by decide +kernel)
  refine ⟨by decide, by decide +kernel, ?_⟩
  rw [ended]
  exact (List.cons_ne_nil _ _).symm

end GradleScript
