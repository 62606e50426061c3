import GradleScript.Proofs.Scan.Continued
import GradleScript.Proofs.Simulation.Runs

namespace GradleScript

/-!
# Runs over a text with closers and without

Closers after a text change nothing before the end of the text, as long as every construct that is
kept with its text ends in the text: a call that becomes a key, and an array literal.  A whole
script comes with them to the end of the text in a state that is related to the one without them.
-/

/-- A text that closers continue is scanned as without them. -/
theorem textSimulation_closedBy (closers : Text) : TextSimulation (ClosedBy closers) where
  cons {ch rest other} closed := by
    obtain ⟨left, isClosers, inClosers, rfl, whole⟩ := closed
    have allLeft := whole (List.cons_ne_nil ch rest)
    exact ⟨rest ++ left, rfl, left, isClosers, inClosers, rfl, fun _ => allLeft⟩
  commentAt {ch rest otherRest} closed := by
    obtain ⟨left, isClosers, _, shape, _⟩ := closed
    rw [shape]
    exact isClosers.commentAt?_append ch rest
  brace closed isBrace := closed.head?_eq (by decide) isBrace
  call {rest otherRest} closed := by
    obtain ⟨left, isClosers, _, shape, whole⟩ := closed
    have allLeft := whole (List.cons_ne_nil '(' rest)
    rw [shape, allLeft]
    exact Brackets.closedBy_after rfl rfl rfl (allLeft ▸ isClosers) rest
  conditional closed :=
    closed.map afterConditional (readsClosers_afterConditional _) (afterAlternatives_of_noElse rfl)
  declaredName closed := by
    obtain ⟨left, isClosers, _, rfl, _⟩ := closed
    exact (readDeclaration_closers _ isClosers).1
  declaration {text other} closed := by
    have reads (left : Text) (isClosers : Closers left) :
        ClosedBy left (readDeclaration text).2 (readDeclaration (text ++ left)).2 :=
      (readDeclaration_closers text isClosers).2
    exact closed.map (fun text => (readDeclaration text).2) reads rfl

/-! ## What is kept ends in the text -/

/-- Whether the construct at the front of a text ends in the text, if it is kept with its text. -/
def KeepsWhole
    (closures : Closures)
    (frame : Frame)
    (text : Text) :
    Turn → Prop
  | .call =>
      frame.KeepsCall → CallEnds text
  | .array =>
      ']' ∈ dropArrayStart text
  | .blockStart =>
      closures.find? frame.statement.blockKey = some .array → ']' ∈ dropArrayStart text.tail
  | _ =>
      True

/-- What is kept depends on the mode and the statement of the frame. -/
theorem KeepsWhole.of_frame
    {closures : Closures} {frame other : Frame} {text : Text} {turn : Turn}
    (keeps : KeepsWhole closures frame text turn)
    (sameMode : frame.mode = other.mode)
    (sameStatement : frame.statement = other.statement) :
    KeepsWhole closures other text turn := by
  cases turn with
  | call =>
      rintro ⟨keepsCalls, notIf⟩
      exact keeps ⟨sameMode ▸ keepsCalls, sameStatement ▸ notIf⟩
  | array =>
      exact keeps
  | blockStart =>
      intro isArray
      exact keeps (sameStatement ▸ isArray)
  | _ =>
      trivial

/-- What ends in a text is kept alike where closers follow. -/
theorem KeepsWhole.keepsAlike
    {closures : Closures} {frame : Frame} {ch : Char} {rest closers : Text} {turn : Turn}
    (keeps : KeepsWhole closures frame (ch :: rest) turn)
    (isClosers : Closers closers) :
    KeepsAlike (ClosedBy closers) closures frame (ch :: rest) (ch :: rest ++ closers) turn := by
  cases turn with
  | call =>
      intro keepsCall
      exact taken_closers (keeps keepsCall) isClosers
  | array =>
      exact readArray_closers keeps isClosers
  | blockStart =>
      intro isArray
      exact readArray_closers (keeps isArray) isClosers
  | _ =>
      trivial

namespace State

/-- A call that is kept is read with the spaces behind it. -/
theorem rest_readCall_of_keepsCall
    {state : State}
    (keepsCall : state.frame.KeepsCall)
    (text : Text) :
    (state.readCall text).session.rest = dropSpaces (parentheses.after text) := by
  obtain ⟨keepsCalls, notIf⟩ := keepsCall
  unfold readCall keepCall
  rw [if_neg (by simpa using notIf), if_pos keepsCalls]
  dsimp only
  split
  · rfl
  · exact rest_recordText _ _ _

/-- A block that is read as an array is read up to the end of the array. -/
theorem rest_openBlock_of_array
    {closures : Closures} {state : State}
    (isArray : closures.find? state.frame.statement.blockKey = some .array)
    (rest : Text) :
    (openBlock closures state rest).session.rest = (readArray rest).2 := by
  unfold Statement.blockKey at isArray
  unfold openBlock
  dsimp only
  rw [isArray]
  exact rest_storeClosure _ _ _

/-- A construct ends in the text, if it is kept with its text, where something is left after it of
the text and the closers. -/
theorem keepsWhole_of_take
    {closures : Closures} {closers : Text} {state next : State}
    {ch : Char} {rest : Text} {turn : Turn}
    (isClosers : Closers closers)
    (turnShape : state.turn ch (rest ++ closers) = turn)
    (taken : state.take closures ch (rest ++ closers) turn = .running next)
    (left : next.session.rest ≠ []) :
    GradleScript.KeepsWhole closures state.frame (ch :: rest) turn := by
  cases turn with
  | call =>
      obtain rfl := eq_of_turn_call turnShape
      cases taken
      intro keepsCall
      apply callEnds_of_after isClosers
      intro nothing
      have keepsCallThere : (state.withLineStart false).frame.KeepsCall := keepsCall
      have leftThere := rest_readCall_of_keepsCall keepsCallThere ('(' :: rest ++ closers)
      rw [nothing] at leftThere
      exact left leftThere
  | array =>
      cases taken
      apply mem_of_readArray isClosers
      exact fun nothing => left ((rest_record _ _ _).trans nothing)
  | blockStart =>
      cases taken
      intro isArray
      apply mem_of_readArray isClosers
      have isArrayThere :
          closures.find? (state.withLineStart false).frame.statement.blockKey = some .array :=
        isArray
      rw [rest_openBlock_of_array isArrayThere] at left
      exact left
  | _ =>
      trivial

/-- Whether the next construct ends in the text that is left, if it is kept with its text. -/
def KeepsWhole (closures : Closures) (state : State) : Prop :=
  ∀ ch rest,
    state.session.rest = ch :: rest →
      GradleScript.KeepsWhole closures (state.settle ch).frame (ch :: rest)
        ((state.settle ch).turn ch rest)

/-- Of two texts one of which closers continue, the same is kept where it ends in the shorter
one. -/
theorem KeepsWhole.keepsAlike
    {closures : Closures} {closers : Text} {first second : State}
    (keeps : first.KeepsWhole closures)
    (closed : ClosedBy closers first.session.rest second.session.rest) :
    KeepsAlike (ClosedBy closers) closures first second := by
  intro ch rest otherRest text otherText
  rw [text, otherText] at closed
  obtain ⟨left, isClosers, _, shape, whole⟩ := closed
  have allLeft := whole (List.cons_ne_nil ch rest)
  subst allLeft
  rw [shape]
  exact (keeps ch rest text).keepsAlike isClosers

/-- The next construct ends in the text where something is left after it. -/
theorem keepsWhole_of_steps
    {closures : Closures} {state next : State}
    (steps : Steps closures state next)
    (left : next.session.rest ≠ []) :
    state.KeepsWhole closures := by
  intro ch rest text
  obtain ⟨first, following, shape, advanced⟩ := steps_iff.mp steps
  obtain ⟨rfl, rfl⟩ := List.cons.inj (text.symm.trans shape)
  have noClosers : rest ++ [] = rest := List.append_nil rest
  have turnShape : (state.settle ch).turn ch (rest ++ []) = (state.settle ch).turn ch rest := by
    rw [noClosers]
  have taken :
      (state.settle ch).take closures ch (rest ++ []) ((state.settle ch).turn ch rest) =
        .running next := by
    rw [noClosers]
    exact advanced
  exact keepsWhole_of_take .nil turnShape taken left

/-- Where something is left of a text with closers after the next construct, both readings keep
the same of it. -/
theorem Simulation.keepsAlike_of_steps
    {closers : Text} {related : State → State → Prop} {first second : State}
    (simulation : Simulation (ClosedBy closers) related)
    (areRelated : related first second)
    (nameless : first.Nameless)
    (otherNameless : second.Nameless)
    (isClosers : Closers closers)
    {closures : Closures} {next : State}
    (steps : Steps closures second next)
    (left : next.session.rest ≠ []) :
    KeepsAlike (ClosedBy closers) closures first second := by
  intro ch rest otherRest text otherText
  have place := simulation.rest areRelated
  rw [text, otherText] at place
  have appended : otherRest = rest ++ closers :=
    (List.cons.inj (place.eq_append (List.cons_ne_nil ch rest))).2
  have noneBegins := beginsName_of_dollarIsPlain (nameless.dollar ch rest text)
  have noneBeginsThere := beginsName_of_dollarIsPlain (otherNameless.dollar ch otherRest otherText)
  have sameTurn :=
    simulation.turn_eq areRelated (noneBeginsThere.trans noneBegins.symm)
      ((textSimulation_closedBy closers).commentAt place)
  obtain ⟨otherCh, following, shape, advanced⟩ := steps_iff.mp steps
  obtain ⟨rfl, rfl⟩ := List.cons.inj (otherText.symm.trans shape)
  rw [otherNameless.advance_eq] at advanced
  subst appended
  have keeps := (keepsWhole_of_take isClosers rfl advanced left).of_frame
    (simulation.mode areRelated) (simulation.statement areRelated)
  rw [settle_of_noName nameless.noName, ← sameTurn]
  exact keeps.keepsAlike isClosers

end State

end GradleScript
