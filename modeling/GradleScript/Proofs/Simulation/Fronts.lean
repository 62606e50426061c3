import GradleScript.Proofs.Block.Lines
import GradleScript.Proofs.Scan.Fronts
import GradleScript.Proofs.Simulation.Runs

namespace GradleScript

/-!
# Reading up to a seam

Two scripts that begin with the same front are read alike up to its end.  Where the one is read up
to its end of the front exactly, so is the other one, unless something has looked ahead there into
what follows.
-/

/-- What is left after the construct of a turn. -/
def leftAfter (closures : Closures) (frame : Frame) (text : Text) : Turn → Text
  | .commentStart _ =>
      text.drop 2
  | .nameStart =>
      if text.tail.head? = some '{' then text.drop 2 else text.tail
  | .call =>
      if frame.statement.part = ifWord then
        afterConditional text
      else if frame.mode.keepCalls = true then
        dropSpaces (parentheses.after text)
      else
        parentheses.after text
  | .array =>
      (readArray text).2
  | .blockStart =>
      match closures.find? frame.statement.blockKey with
      | some .array => (readArray text.tail).2
      | _ => text.tail
  | .keyEnd =>
      if isDeclarationWord frame.statement.part = true then
        (readDeclaration text.tail).2
      else if frame.statement.part = ifWord then
        afterConditional text.tail
      else
        text.tail
  | _ =>
      text.tail

namespace State

/-- A block that is read as an array is read up to the end of the array, and any other one from its
brace on. -/
theorem rest_openBlock_eq
    (closures : Closures) (state : State) (rest : Text) :
    (openBlock closures state rest).session.rest =
      match closures.find? state.frame.statement.blockKey with
      | some .array => (readArray rest).2
      | _ => rest := by
  unfold openBlock Statement.blockKey
  dsimp only
  generalize
    (if state.frame.statement.key.isEmpty then strip state.frame.statement.part
      else state.frame.statement.key) = key
  cases closures.find? key with
  | none =>
      rfl
  | some closure =>
      cases closure with
      | array =>
          exact rest_storeClosure _ _ _
      | repositories =>
          rfl
      | body mode =>
          rfl

/-- A key is read with the declaration or the conditional that it begins. -/
theorem rest_dispatchKey_eq
    (state : State) :
    state.dispatchKey.session.rest =
      if isDeclarationWord state.frame.statement.part = true then
        (readDeclaration state.session.rest).2
      else if state.frame.statement.part = ifWord then
        afterConditional state.session.rest
      else
        state.session.rest := by
  unfold dispatchKey
  simp only [beq_iff_eq]
  split
  · split <;> rfl
  · split <;> rfl

/-- The character that ends a key is read with the declaration or the conditional that the key
begins. -/
theorem rest_readKeyEnd
    (state : State) (ch : Char) (rest : Text) :
    (state.readKeyEnd ch rest).session.rest =
      if isDeclarationWord state.frame.statement.part = true then
        (readDeclaration rest).2
      else if state.frame.statement.part = ifWord then
        afterConditional rest
      else
        rest := by
  unfold readKeyEnd
  dsimp only
  split
  · next fresh =>
      -- Nothing has been read, which is no word.
      have noWord : state.frame.statement.part = [] := (Statement.isFresh_iff _).mp fresh
      rw [noWord]
      rfl
  · exact rest_dispatchKey_eq _

/-- Every turn leaves what comes after its construct. -/
theorem rest_take
    {closures : Closures} {state next : State} {ch : Char} {rest : Text} {turn : Turn}
    (taken : state.take closures ch rest turn = .running next) :
    next.session.rest = leftAfter closures state.frame (ch :: rest) turn := by
  cases turn with
  | comment =>
      cases taken
      unfold readComment
      dsimp only
      split <;> rfl
  | namePart =>
      cases taken
      unfold readNamePart
      dsimp only
      split <;> rfl
  | nameEnd | indentation | quoted =>
      cases taken
      rfl
  | commentStart kind =>
      cases taken
      rfl
  | nameStart =>
      cases taken
      unfold readNameStart leftAfter
      dsimp only
      split
      · rfl
      · next noBrace =>
          rw [if_neg]
          · rfl
          · intro isBrace
            obtain ⟨name, shape⟩ := List.head?_eq_some_iff.mp isBrace
            exact noBrace name shape
  | lineEnd =>
      cases taken
      exact rest_readLineEnd _ _ _
  | call =>
      cases taken
      unfold readCall keepCall leftAfter
      dsimp only [withLineStart]
      simp only [beq_iff_eq]
      split
      · rfl
      · split
        · split
          · rfl
          · exact rest_recordText _ _ _
        · rfl
  | array =>
      cases taken
      exact rest_record _ _ _
  | blockStart =>
      cases taken
      exact rest_openBlock_eq closures _ rest
  | blockEnd =>
      exact rest_closeBlock taken
  | keyEnd =>
      cases taken
      exact rest_readKeyEnd _ ch rest
  | plain =>
      cases taken
      unfold readPlain
      dsimp only
      split <;> rfl

/-- Where no comment starts, a turn does not depend on what comes after its character. -/
theorem turn_eq_of_noComment
    {state : State} {ch : Char} {rest otherRest : Text}
    (noComment : ∀ kind, state.turn ch rest ≠ .commentStart kind)
    (noneThere : commentAt? (ch :: otherRest) = none) :
    state.turn ch otherRest = state.turn ch rest := by
  unfold turn at noComment ⊢
  dsimp only at noComment ⊢
  rw [noneThere]
  repeat' split
  all_goals simp_all

/-- A line end begins no name. -/
theorem turn_lineEnd_ne_nameStart
    (state : State) (rest : Text) :
    state.turn '\n' rest ≠ .nameStart := by
  unfold turn
  dsimp only
  repeat' split
  all_goals simp_all

end State

namespace Seam

variable {tail otherTail lines front : Text} {closures : Closures} {state : State} {ch : Char}

/-- The last character of whole lines is a line end. -/
theorem eq_lineEnd
    (wholeLines : lines.getLast? = some '\n')
    (inLines : [ch] <:+ lines) :
    ch = '\n' := by
  obtain ⟨line, shape⟩ := exists_eq_lineEnd wholeLines inLines (List.cons_ne_nil ch [])
  rw [← List.nil_append [ch]] at shape
  obtain ⟨_, isLineEnd⟩ := List.append_inj' shape rfl
  exact List.singleton_inj.mp isLineEnd

/-- What begins in the front is read as the same thing before either end, where it leaves the whole
of the first one. -/
theorem turn_eq
    (seam : Seam tail otherTail lines)
    (inLines : ch :: front <:+ lines)
    (ends :
      tail.length ≤
        (leftAfter closures state.frame (ch :: (front ++ tail))
          (state.turn ch (front ++ tail))).length) :
    state.turn ch (front ++ otherTail) = state.turn ch (front ++ tail) := by
  cases front with
  | cons second later =>
      -- Both texts go on with the same character, so a comment starts in both or in neither.
      rfl
  | nil =>
      have noneThere : commentAt? (ch :: otherTail) = none := by
        rcases seam.otherStops with ⟨rest, rfl | rfl⟩ | wholeLines
        · exact commentOpener?_ne_some ch (by decide) (by decide)
        · exact commentOpener?_ne_some ch (by decide) (by decide)
        · exact commentAt?_of_ne_slash (by rw [eq_lineEnd wholeLines inLines]; decide) _
      have noComment (kind : CommentKind) : state.turn ch tail ≠ .commentStart kind := by
        intro starts
        have tailLength := List.length_pos_iff.mpr seam.ne_nil
        rw [List.nil_append, starts] at ends
        unfold leftAfter at ends
        rw [List.length_drop, List.length_cons] at ends
        omega
      exact State.turn_eq_of_noComment noComment noneThere

/-- A call or a conditional that leaves the whole of the first end is read alike before the other
end, unless it looks ahead into that. -/
theorem readsAlike_call
    (seam : Seam tail otherTail lines)
    (inLines : '(' :: front <:+ lines)
    {frame : Frame}
    (ends :
      tail.length ≤ (leftAfter closures frame ('(' :: (front ++ tail)) .call).length) :
    GradleScript.ReadsAlike (SameFront tail otherTail) closures frame ('(' :: (front ++ tail))
        ('(' :: (front ++ otherTail)) .call ∨
      Overtakes otherTail (leftAfter closures frame ('(' :: (front ++ otherTail)) .call) := by
  unfold leftAfter at ends ⊢
  dsimp only at ends ⊢
  by_cases isIf : frame.statement.part = ifWord
  · rw [if_pos isIf] at ends ⊢
    have ended :
        SameFront tail otherTail (afterConditional ('(' :: front ++ tail))
            (afterConditional ('(' :: front ++ otherTail)) ∨
          Overtakes otherTail (afterConditional ('(' :: front ++ otherTail)) :=
      seam.conditional inLines ends
    exact ended.imp_left fun conditional =>
      ⟨fun _ => conditional, fun keeps => (keeps.2 isIf).elim, fun notIf => (notIf isIf).elim⟩
  · rw [if_neg isIf] at ends
    left
    refine ⟨fun isIfWord => (isIf isIfWord).elim, ?_, ?_⟩
    · intro keeps
      rw [if_pos keeps.1] at ends
      exact seam.keptCall inLines ends
    · intro _ discards
      rw [if_neg (by rw [discards]; exact Bool.false_ne_true)] at ends
      exact
        (Brackets.endsWithin_after_of_opens rfl rfl rfl seam.ne_nil ends).sameFront tail otherTail

/-- What a key introduces, and leaves the whole of the first end, is read alike before the other
end, unless it looks ahead into that. -/
theorem readsAlike_keyEnd
    (seam : Seam tail otherTail lines)
    (inLines : front <:+ lines)
    {frame : Frame}
    (ends :
      tail.length ≤ (leftAfter closures frame (ch :: (front ++ tail)) .keyEnd).length) :
    GradleScript.ReadsAlike (SameFront tail otherTail) closures frame (ch :: (front ++ tail))
        (ch :: (front ++ otherTail)) .keyEnd ∨
      Overtakes otherTail (leftAfter closures frame (ch :: (front ++ otherTail)) .keyEnd) := by
  have restsFollow : SameFront tail otherTail (front ++ tail) (front ++ otherTail) :=
    ⟨front, rfl, rfl⟩
  unfold leftAfter at ends ⊢
  dsimp only at ends ⊢
  by_cases declares : isDeclarationWord frame.statement.part = true
  · have notIf : frame.statement.part ≠ ifWord := by
      intro isIf
      rw [isIf] at declares
      revert declares
      decide
    rw [if_pos declares] at ends ⊢
    exact (seam.declaration ends).imp_left fun declaration =>
      ⟨restsFollow, fun _ => declaration, fun isIf => (notIf isIf).elim⟩
  · rw [if_neg declares] at ends ⊢
    by_cases isIf : frame.statement.part = ifWord
    · rw [if_pos isIf] at ends ⊢
      exact (seam.conditional inLines ends).imp_left fun conditional =>
        ⟨restsFollow, fun isWord => (declares isWord).elim, fun _ => conditional⟩
    · exact
        .inl
          ⟨restsFollow, fun isWord => (declares isWord).elim, fun isWord => (isIf isWord).elim⟩

/-- A construct that begins in the front and leaves the whole of the first end is read alike before
the other end, unless it looks ahead into that. -/
theorem readsAlike
    (seam : Seam tail otherTail lines)
    (inLines : ch :: front <:+ lines)
    (noArrays : ∀ key, closures.find? key ≠ some .array)
    (ends :
      tail.length ≤
        (leftAfter closures state.frame (ch :: (front ++ tail))
          (state.turn ch (front ++ tail))).length) :
    GradleScript.ReadsAlike (SameFront tail otherTail) closures state.frame
        (ch :: (front ++ tail)) (ch :: (front ++ otherTail)) (state.turn ch (front ++ tail)) ∨
      Overtakes otherTail
        (leftAfter closures state.frame (ch :: (front ++ otherTail))
          (state.turn ch (front ++ tail))) := by
  have restsFollow : SameFront tail otherTail (front ++ tail) (front ++ otherTail) :=
    ⟨front, rfl, rfl⟩
  cases turn : state.turn ch (front ++ tail) with
  | commentStart kind =>
      left
      cases front with
      | nil =>
          have tailLength := List.length_pos_iff.mpr seam.ne_nil
          rw [turn] at ends
          unfold leftAfter at ends
          rw [List.nil_append, List.length_drop, List.length_cons] at ends
          omega
      | cons second body =>
          exact ⟨body, rfl, rfl⟩
  | nameStart =>
      left
      cases front with
      | nil =>
          have noBrace : tail.head? ≠ some '{' := by
            obtain ⟨rest, rfl | rfl⟩ := seam.stops <;> simp
          have noBraceThere : otherTail.head? ≠ some '{' := by
            rcases seam.otherStops with ⟨rest, rfl | rfl⟩ | wholeLines
            · simp
            · simp
            · rw [eq_lineEnd wholeLines inLines] at turn
              exact (State.turn_lineEnd_ne_nameStart state _ turn).elim
          exact
            ⟨restsFollow, iff_of_false noBraceThere noBrace, fun isBrace => (noBrace isBrace).elim⟩
      | cons second name =>
          exact ⟨restsFollow, Iff.rfl, fun _ => ⟨name, rfl, rfl⟩⟩
  | call =>
      obtain rfl := State.eq_of_turn_call turn
      rw [turn] at ends
      exact seam.readsAlike_call inLines ends
  | array =>
      obtain rfl := State.eq_of_turn_array turn
      rw [turn] at ends
      exact .inl (seam.arrayLiteral ends)
  | blockStart =>
      exact .inl ⟨restsFollow, fun isArray => (noArrays _ isArray).elim⟩
  | keyEnd =>
      rw [turn] at ends
      exact seam.readsAlike_keyEnd ((List.suffix_cons ch front).trans inLines) ends
  | _ =>
      exact .inl restsFollow

end Seam

/-- What a construct leaves depends on the statement and the mode of its body alone. -/
theorem leftAfter_congr
    {frame other : Frame}
    (sameStatement : other.statement = frame.statement)
    (sameMode : other.mode = frame.mode)
    (closures : Closures) (text : Text) (turn : Turn) :
    leftAfter closures other text turn = leftAfter closures frame text turn := by
  unfold leftAfter
  rw [sameStatement, sameMode]

/-- Two texts with the same front are at their ends at once. -/
theorem SameFront.eq_or_exists_cons
    {tail otherTail text other : Text}
    (sameFront : SameFront tail otherTail text other) :
    (text = tail ∧ other = otherTail) ∨
      ∃ ch front, text = ch :: (front ++ tail) ∧ other = ch :: (front ++ otherTail) := by
  obtain ⟨front, textShape, otherShape⟩ := sameFront
  cases front with
  | nil =>
      exact .inl ⟨textShape, otherShape⟩
  | cons ch front =>
      exact .inr ⟨ch, front, textShape, otherShape⟩

/-- Where the one text is at its end, so is the other one. -/
theorem SameFront.eq_of_tail
    {tail otherTail other : Text}
    (sameFront : SameFront tail otherTail tail other) :
    other = otherTail := by
  obtain ⟨front, atTail, shape⟩ := sameFront
  rw [shape, List.self_eq_append_left.mp atTail, List.nil_append]

namespace State

variable {tail otherTail lines : Text} {closures : Closures} {first second next other : State}

/-! ## One construct of the front -/

/-- Whether two states agree on what decides how a construct is read that begins with a
character. -/
structure TurnsAlike (first second : State) (ch : Char) : Prop where
  turn : ∀ rest, (second.settle ch).turn ch rest = (first.settle ch).turn ch rest
  statement : (second.settle ch).frame.statement = (first.settle ch).frame.statement
  mode : (second.settle ch).frame.mode = (first.settle ch).frame.mode

/-- Before either end, a construct of the front is read alike, or the second reading looks ahead
into its end. -/
theorem readsAlike_or_overtakes
    {ch : Char} {front : Text}
    (seam : Seam tail otherTail lines)
    (inLines : ch :: front <:+ lines)
    (noArrays : ∀ key, closures.find? key ≠ some .array)
    (turnsAlike : TurnsAlike first second ch)
    (text : first.session.rest = ch :: (front ++ tail))
    (otherText : second.session.rest = ch :: (front ++ otherTail))
    (steps : Steps closures first next)
    (otherSteps : Steps closures second other)
    (ends : tail.length ≤ next.session.rest.length) :
    ReadsAlike (SameFront tail otherTail) closures first second ch (front ++ tail)
        (front ++ otherTail) ∨
      Overtakes otherTail other.session.rest := by
  obtain ⟨_, _, shape, advanced⟩ := steps_iff.mp steps
  obtain ⟨_, _, otherShape, otherAdvanced⟩ := steps_iff.mp otherSteps
  obtain ⟨rfl, rfl⟩ := List.cons.inj (text.symm.trans shape)
  obtain ⟨rfl, rfl⟩ := List.cons.inj (otherText.symm.trans otherShape)
  have left : next.session.rest = leftAfter closures (first.settle ch).frame (ch :: (front ++ tail))
      ((first.settle ch).turn ch (front ++ tail)) :=
    rest_take advanced
  have otherLeft : other.session.rest =
      leftAfter closures (second.settle ch).frame (ch :: (front ++ otherTail))
        ((second.settle ch).turn ch (front ++ otherTail)) :=
    rest_take otherAdvanced
  rw [left] at ends
  have sameTurn :
      (second.settle ch).turn ch (front ++ otherTail) =
        (first.settle ch).turn ch (front ++ tail) :=
    (turnsAlike.turn _).trans (seam.turn_eq inLines ends)
  rw [otherLeft, sameTurn, leftAfter_congr turnsAlike.statement turnsAlike.mode]
  exact (seam.readsAlike inLines noArrays ends).imp_left fun reads =>
    ⟨text, otherText, sameTurn, reads⟩

/-- States that a simulation of names relates agree on the construct of the next character. -/
theorem NamingSimulation.turnsAlike
    {follows : Text → Text → Prop} {related : State → State → Prop}
    (simulation : NamingSimulation follows related)
    (areRelated : related first second)
    (ch : Char) :
    TurnsAlike first second ch :=
  have settled := simulation.settle areRelated ch
  ⟨fun _ => simulation.turn_settle_eq areRelated rfl, simulation.statement settled,
    simulation.mode settled⟩

/-- States that a simulation relates agree on the construct of the next character, where it is part
of no name. -/
theorem Simulation.turnsAlike
    {follows : Text → Text → Prop} {related : State → State → Prop}
    (simulation : Simulation follows related)
    (areRelated : related first second)
    (nameless : first.Nameless)
    (otherNameless : second.Nameless)
    {ch : Char} {rest otherRest : Text}
    (text : first.session.rest = ch :: rest)
    (otherText : second.session.rest = ch :: otherRest) :
    TurnsAlike first second ch := by
  have noneBegins := beginsName_of_dollarIsPlain (nameless.dollar _ _ text)
  have noneBeginsThere := beginsName_of_dollarIsPlain (otherNameless.dollar _ _ otherText)
  constructor <;>
    rw [settle_of_noName nameless.noName, settle_of_noName otherNameless.noName]
  · exact fun _ => simulation.turn_eq areRelated (noneBeginsThere.trans noneBegins.symm) rfl
  · exact simulation.statement areRelated
  · exact simulation.mode areRelated

/-! ## The whole front -/

/-- What is left before the end of a text is a part of the lines before the end. -/
theorem front_suffix
    {ch : Char} {front text : Text}
    (inLines : text <:+ lines ++ tail)
    (shape : text = ch :: (front ++ tail)) :
    ch :: front <:+ lines := by
  rw [shape, ← List.cons_append] at inLines
  exact List.suffix_append_self_iff.mp inLines

/-- Whether a step of related states leads to related states, or the second one looks ahead into the
end of its text. -/
def StepsToSeam
    (tail otherTail : Text)
    (closures : Closures)
    (related : State → State → Prop)
    (first second : State) : Prop :=
  ∀ next other,
    first.session.rest ≠ tail → Steps closures first next → Steps closures second other →
      tail.length ≤ next.session.rest.length →
        related next other ∨ Overtakes otherTail other.session.rest

/-- One construct leads related states, names included, to related states, or it looks ahead into
the end of a text. -/
theorem NamingSimulation.stepsToSeam
    {related : State → State → Prop}
    (simulation : NamingSimulation (SameFront tail otherTail) related)
    (seam : Seam tail otherTail lines)
    (inLines : first.session.rest <:+ lines ++ tail)
    (noArrays : ∀ key, closures.find? key ≠ some .array)
    (areRelated : related first second) :
    StepsToSeam tail otherTail closures related first second := by
  intro next other notAtTail steps otherSteps ends
  rcases (simulation.rest areRelated).eq_or_exists_cons with
    ⟨atTail, _⟩ | ⟨ch, front, text, otherText⟩
  · exact (notAtTail atTail).elim
  · have turnsAlike := simulation.turnsAlike areRelated ch
    have reads :=
      readsAlike_or_overtakes seam (front_suffix inLines text) noArrays turnsAlike text otherText
        steps otherSteps ends
    exact reads.imp_left fun alike =>
      simulation.steps_of_readsAlike areRelated alike steps otherSteps

/-- One construct leads related states without names to related states, or it looks ahead into the
end of a text. -/
theorem Simulation.stepsToSeam
    {related : State → State → Prop}
    (simulation : Simulation (SameFront tail otherTail) related)
    (seam : Seam tail otherTail lines)
    (inLines : first.session.rest <:+ lines ++ tail)
    (noArrays : ∀ key, closures.find? key ≠ some .array)
    (areRelated : related first second)
    (nameless : first.Nameless)
    (otherNameless : second.Nameless) :
    StepsToSeam tail otherTail closures related first second := by
  intro next other notAtTail steps otherSteps ends
  rcases (simulation.rest areRelated).eq_or_exists_cons with
    ⟨atTail, _⟩ | ⟨ch, front, text, otherText⟩
  · exact (notAtTail atTail).elim
  · have turnsAlike := simulation.turnsAlike areRelated nameless otherNameless text otherText
    have reads :=
      readsAlike_or_overtakes seam (front_suffix inLines text) noArrays turnsAlike text otherText
        steps otherSteps ends
    exact reads.imp_left fun alike =>
      simulation.steps_of_readsAlike areRelated nameless otherNameless alike steps otherSteps

/-- Where a state is read up to the end of the front exactly, a related state of a whole script is
read up to it, too, or it is read over it because the end goes on with what was being read. -/
theorem reaches_seam
    {related : State → State → Prop}
    (rest :
      ∀ state other, related state other →
        SameFront tail otherTail state.session.rest other.session.rest)
    (areRelated : related first second)
    (whole : second.wholeScript = true)
    (lockstep :
      ∀ state other, Reaches closures first state → Reaches closures second other →
        related state other → StepsToSeam tail otherTail closures related state other)
    {later : State}
    (reaches : Reaches closures first later)
    (atSeam : later.session.rest = tail) :
    (∃ other, Reaches closures second other ∧ related later other) ∨
      Continues otherTail ∧
        ∀ other, Reaches closures second other → other.session.rest ≠ otherTail := by
  induction reaches using Relation.ReflTransGen.head_induction_on generalizing second with
  | refl =>
      exact .inl ⟨second, .refl, areRelated⟩
  | @head first next steps reached inductionHypothesis =>
      have bound := (Reaches.rest_suffix reached).length_le
      have shorter := steps.length_rest_lt
      rw [atSeam] at bound
      rcases (rest _ _ areRelated).eq_or_exists_cons with
        ⟨atTail, _⟩ | ⟨ch, front, text, otherText⟩
      · rw [atTail] at shorter
        omega
      · obtain ⟨other, otherSteps⟩ :=
          exists_steps closures whole (otherText ▸ List.cons_ne_nil ch _)
        -- The second state stands before its end, and its reading goes one way.
        have later {state : State} (otherReached : Reaches closures second state)
            (atOtherTail : state.session.rest = otherTail) :
            Reaches closures other state := by
          rcases otherReached.cases_head with rfl | ⟨between, firstStep, reachesState⟩
          · have lengths := congrArg List.length (otherText.symm.trans atOtherTail)
            rw [List.length_cons, List.length_append] at lengths
            omega
          · exact steps_rightUnique closures firstStep otherSteps ▸ reachesState
        have notAtTail : first.session.rest ≠ tail := by
          intro atTail
          rw [atTail] at shorter
          omega
        rcases lockstep first second .refl .refl areRelated next other notAtTail steps otherSteps
            bound with
          nextRelated | ⟨continues, overtakes⟩
        · have goesOn :=
            inductionHypothesis nextRelated (otherSteps.wholeScript_eq.trans whole)
              (fun state later reachesState reachesLater =>
                lockstep state later (.head steps reachesState) (.head otherSteps reachesLater))
          rcases goesOn with ⟨last, reachesLast, lastRelated⟩ | ⟨continues, passes⟩
          · exact .inl ⟨last, .head otherSteps reachesLast, lastRelated⟩
          · exact
              .inr ⟨continues, fun state reachesState atOtherTail =>
                passes state (later reachesState atOtherTail) atOtherTail⟩
        · refine .inr ⟨continues, ?_⟩
          intro state reachesState atOtherTail
          have behind := (later reachesState atOtherTail).rest_suffix.length_le
          rw [atOtherTail] at behind
          omega

end State

end GradleScript
