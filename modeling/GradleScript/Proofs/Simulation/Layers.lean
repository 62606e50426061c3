import GradleScript.Proofs.Simulation.Outline

namespace GradleScript

/-!
# What a construct does to the entries

The entries of the bodies being read form layers, the innermost body first.  A construct records at
most one value in the innermost body, or enters a nested body, or leaves the innermost one for the
body around it, which gets its entries.  Which of these it does, and with which value, depends on
the statement, the mode and the text, and not on what the bodies have stored.
-/

/-- The entries of the bodies being read: of the innermost one, and of each body around, with what
has been opened in it. -/
structure Layers where
  entries : Mapping
  around : List (Mapping × Opening)

/-- What a construct does to the layers. -/
inductive Act where
  /-- Record a value under a key, if there is one. -/
  | record (pending : Option (Text × Value))
  /-- Enter a nested body. -/
  | enter (opening : Opening)
  /-- Record a value, and leave the body. -/
  | leave (pending : Option (Text × Value))

namespace Mapping

/-- The entries with one more value recorded under its key, if there is one. -/
def addPending (entries : Mapping) : Option (Text × Value) → Mapping
  | none => entries
  | some (key, value) => entries.add key value

end Mapping

namespace Opening

/-- What a finished body leaves in the entries of the body around it. -/
def stores (opening : Opening) (entries nested : Mapping) : Mapping :=
  Suspended.entriesAfter ⟨{ entries := entries }, opening⟩ nested

/-- What a waiting body stores of a finished one depends on the outline of its opening alone. -/
theorem stores_outline
    (suspended : Suspended) (nested : Mapping) :
    suspended.opening.outline.stores suspended.frame.entries nested =
      suspended.entriesAfter nested := by
  obtain ⟨frame, opening⟩ := suspended
  cases opening <;> rfl

end Opening

namespace Act

/-- The layers after a construct.  A brace outside every block leaves no body. -/
def apply : Act → Layers → Layers
  | .record pending, layers =>
      { layers with entries := layers.entries.addPending pending }
  | .enter opening, ⟨entries, around⟩ =>
      ⟨[], (entries, opening) :: around⟩
  | .leave pending, ⟨entries, []⟩ =>
      ⟨entries.addPending pending, []⟩
  | .leave pending, ⟨entries, (outer, opening) :: around⟩ =>
      ⟨opening.stores outer (entries.addPending pending), around⟩

end Act

/-- What the text of a value is recorded as under a key, unless there is nothing to record. -/
def Mode.entryOf (mode : Mode) (key raw : Text) : Option (Text × Value) :=
  if key.isEmpty || ((strip raw).isEmpty && !mode.keepEmpty) then
    none
  else
    some (key, .ofScalar (trimQuotes (strip raw)))

namespace Frame

/-- What the end of the current statement records. -/
def pending (frame : Frame) : Option (Text × Value) :=
  if frame.statement.key.isEmpty && !frame.statement.isFresh then
    frame.mode.entryOf (strip frame.statement.part) []
  else
    frame.mode.entryOf frame.statement.key frame.statement.part

/-- What a block of the current statement is opened as. -/
def opening (closures : Closures) (frame : Frame) : Opening :=
  match closures.find? frame.statement.blockKey with
  | some .repositories => .closure frame.statement.blockKey true
  | some (.body _) => .closure frame.statement.blockKey false
  | _ => .block frame.statement.blockKey false

/-- What a call in the current statement records: its text, if it is kept and no body follows. -/
def keptCall (frame : Frame) (text : Text) : Option (Text × Value) :=
  if frame.statement.part = ifWord ∨ frame.mode.keepCalls = false ∨
      (dropSpaces (parentheses.after text)).head? = some '{' then
    none
  else
    frame.mode.entryOf (frame.statement.part ++ parentheses.taken text) []

/-- What the construct of a turn does to the layers. -/
def act (closures : Closures) (frame : Frame) (text : Text) : Turn → Act
  | .lineEnd | .commentStart _ =>
      .record frame.pending
  | .call =>
      .record (frame.keptCall text)
  | .array =>
      .record (some (frame.statement.key, .list ((readArray text).1.map Value.text)))
  | .blockStart =>
      .enter (frame.opening closures)
  | .blockEnd =>
      .leave frame.pending
  | _ =>
      .record none

/-- The same statement in texts that are read alike does the same to the layers. -/
theorem act_eq
    {follows : Text → Text → Prop} {closures : Closures} {frame other : Frame}
    {text otherText : Text} {turn : Turn}
    (sameStatement : other.statement = frame.statement)
    (sameMode : other.mode = frame.mode)
    (reads : ReadsAlike follows closures frame text otherText turn) :
    other.act closures otherText turn = frame.act closures text turn := by
  have samePending : other.pending = frame.pending := by
    unfold pending
    rw [sameStatement, sameMode]
  cases turn with
  | lineEnd | commentStart kind | blockEnd =>
      unfold act
      rw [samePending]
  | call =>
      obtain ⟨_, kept, _⟩ := reads
      unfold act keptCall
      rw [sameStatement, sameMode]
      by_cases isIf : frame.statement.part = ifWord
      · simp [isIf]
      · cases keepsCalls : frame.mode.keepCalls with
        | false =>
            simp
        | true =>
            obtain ⟨sameCall, _, sameBrace⟩ := kept ⟨keepsCalls, isIf⟩
            simp [sameCall, sameBrace]
  | array =>
      obtain ⟨sameItems, _⟩ := reads
      unfold act
      rw [sameStatement, sameItems]
  | blockStart =>
      unfold act opening
      rw [sameStatement]
  | _ =>
      rfl

end Frame

namespace State

/-- The layers of a state. -/
def layers (state : State) : Layers where
  entries := state.frame.entries
  around := state.outer.map fun suspended => (suspended.frame.entries, suspended.opening.outline)

/-- The layers around the current body belong to its surroundings. -/
theorem around_layers_congr
    {first second : State}
    (same : second.outer.map Suspended.unshared = first.outer.map Suspended.unshared) :
    second.layers.around = first.layers.around := by
  have ofUnshared (state : State) :
      state.layers.around =
        (state.outer.map Suspended.unshared).map fun suspended =>
          (suspended.frame.entries, suspended.opening.outline) := by
    rw [List.map_map]
    rfl
  rw [ofUnshared, ofUnshared, same]

/-- The text of a value adds to the entries what it is recorded as. -/
theorem entries_recordText
    (state : State) (key raw : Text) :
    (state.recordText key raw).frame.entries =
      state.frame.entries.addPending (state.frame.mode.entryOf key raw) := by
  unfold recordText Mode.entryOf
  dsimp only
  split
  · rfl
  · exact entries_record _ _ _

/-- The end of a statement records what is pending. -/
theorem entries_flush
    (state : State) :
    state.flush.frame.entries = state.frame.entries.addPending state.frame.pending := by
  unfold flush Frame.pending
  dsimp only
  split <;> exact entries_recordText _ _ _

/-- A call adds to the entries what is kept of it. -/
theorem entries_readCall
    (state : State) (text : Text) :
    (state.readCall text).frame.entries =
      state.frame.entries.addPending (state.frame.keptCall text) := by
  unfold readCall keepCall Frame.keptCall
  by_cases isIf : state.frame.statement.part = ifWord
  · simp only [isIf, beq_self_eq_true, if_true, true_or]
    rfl
  · cases keepsCalls : state.frame.mode.keepCalls with
    | false =>
        simp only [beq_iff_eq, isIf, if_false, Bool.false_eq_true, false_or, true_or, if_true]
        rfl
    | true =>
        by_cases isBrace : (dropSpaces (parentheses.after text)).head? = some '{'
        · simp only [beq_iff_eq, isIf, if_false, isBrace, or_true, if_true]
          rfl
        · simp only [beq_iff_eq, isIf, if_false, isBrace, or_false, if_true, Bool.true_eq_false]
          exact entries_recordText _ _ _

/-- A key adds nothing to the entries. -/
theorem entries_dispatchKey
    (state : State) :
    state.dispatchKey.frame.entries = state.frame.entries := by
  unfold dispatchKey
  dsimp only
  split
  · split <;> rfl
  · split <;> rfl

/-- A construct that is no brace of a block records what it says in the current body. -/
theorem layers_take_within
    {closures : Closures} {state next : State} {ch : Char} {rest : Text} {turn : Turn}
    (noStart : turn ≠ .blockStart)
    (noEnd : turn ≠ .blockEnd)
    (taken : state.take closures ch rest turn = .running next) :
    next.layers = (state.frame.act closures (ch :: rest) turn).apply state.layers := by
  have outers : next.outer.map Suspended.unshared = state.outer.map Suspended.unshared :=
    congrArg (fun body => body.outer) (surroundings_take noStart noEnd taken)
  have recorded {pending : Option (Text × Value)}
      (entries : next.frame.entries = state.frame.entries.addPending pending) :
      next.layers = (Act.record pending).apply state.layers := by
    have around := around_layers_congr outers
    unfold layers Act.apply at *
    dsimp only at around ⊢
    rw [entries, around]
  cases turn with
  | blockStart =>
      exact (noStart rfl).elim
  | blockEnd =>
      exact (noEnd rfl).elim
  | comment =>
      apply recorded
      cases taken
      unfold readComment
      dsimp only
      split <;> rfl
  | namePart =>
      apply recorded
      cases taken
      unfold readNamePart
      dsimp only
      split <;> rfl
  | nameStart =>
      apply recorded
      cases taken
      unfold readNameStart
      dsimp only
      split <;> rfl
  | nameEnd | indentation | quoted =>
      apply recorded
      cases taken
      rfl
  | lineEnd =>
      apply recorded
      cases taken
      exact entries_flush (state.withRest rest)
  | commentStart kind =>
      apply recorded
      cases taken
      exact entries_flush (state.withLineStart false)
  | call =>
      apply recorded
      cases taken
      exact entries_readCall (state.withLineStart false) (ch :: rest)
  | array =>
      apply recorded
      cases taken
      exact entries_record _ _ _
  | keyEnd =>
      apply recorded
      cases taken
      unfold readKeyEnd
      dsimp only
      split
      · rfl
      · exact entries_dispatchKey _
  | plain =>
      apply recorded
      cases taken
      unfold readPlain
      dsimp only
      split <;> rfl

/-- An opening brace puts a new layer over the entries of its body. -/
theorem layers_openBlock
    {closures : Closures}
    (noArrays : ∀ key, closures.find? key ≠ some .array)
    (state : State) (rest : Text) :
    (openBlock closures state rest).layers =
      (Act.enter (state.frame.opening closures)).apply state.layers := by
  unfold openBlock Frame.opening Statement.blockKey
  dsimp only
  generalize
    (if state.frame.statement.key.isEmpty then strip state.frame.statement.part
      else state.frame.statement.key) = key
  cases found : closures.find? key with
  | none =>
      rfl
  | some closure =>
      cases closure with
      | array =>
          exact (noArrays key found).elim
      | repositories =>
          rfl
      | body mode =>
          rfl

/-- Going on with a body around leaves it with the entries of the finished body. -/
theorem layers_resume
    (state : State) (suspended : Suspended) (outer : List Suspended) :
    (state.resume suspended outer).layers =
      ⟨suspended.entriesAfter state.frame.entries,
        outer.map fun suspended => (suspended.frame.entries, suspended.opening.outline)⟩ := by
  have around :
      (state.resume suspended outer).layers.around =
        { state with outer := outer }.layers.around :=
    around_layers_congr (outer_surroundings_resume state suspended outer)
  unfold layers at around ⊢
  rw [entries_resume]
  exact congrArg (Layers.mk _) around

/-- A closing brace stores the innermost layer in the one below it. -/
theorem layers_closeBlock
    {state next : State} {rest : Text}
    (closed : state.closeBlock rest = .running next) :
    next.layers = (Act.leave state.frame.pending).apply state.layers := by
  have entries := entries_flush (state.withRest rest)
  have around : (state.withRest rest).flush.layers.around = state.layers.around :=
    around_layers_congr
      (congrArg (fun body => body.outer) (surroundings_flush (state.withRest rest)))
  unfold closeBlock at closed
  dsimp only at closed
  split at closed
  · next suspended outer isAround =>
      cases closed
      have shape :
          state.layers =
            ⟨state.frame.entries,
              (suspended.frame.entries, suspended.opening.outline) ::
                outer.map fun suspended =>
                  (suspended.frame.entries, suspended.opening.outline)⟩ := by
        unfold layers at around ⊢
        dsimp only at around
        rw [← around, isAround, List.map_cons]
      rw [layers_resume, shape, Act.apply, Opening.stores_outline, entries]
      rfl
  · next alone =>
      split at closed
      · cases closed
        have shape : state.layers = ⟨state.frame.entries, []⟩ := by
          unfold layers at around ⊢
          dsimp only at around
          rw [← around, alone, List.map_nil]
        have none :
            (state.withRest rest).flush.outer.map
                (fun suspended => (suspended.frame.entries, suspended.opening.outline)) = [] := by
          rw [alone, List.map_nil]
        rw [shape, Act.apply]
        exact congrArg₂ Layers.mk entries none
      · cases closed

/-- Every construct does to the layers what it says. -/
theorem layers_take
    {closures : Closures} {state next : State} {ch : Char} {rest : Text} {turn : Turn}
    (noArrays : ∀ key, closures.find? key ≠ some .array)
    (taken : state.take closures ch rest turn = .running next) :
    next.layers = (state.frame.act closures (ch :: rest) turn).apply state.layers := by
  by_cases isStart : turn = .blockStart
  · subst isStart
    cases taken
    exact layers_openBlock noArrays (state.withLineStart false) rest
  · by_cases isEnd : turn = .blockEnd
    · subst isEnd
      have closed : (state.withLineStart false).closeBlock rest = .running next := taken
      have left := layers_closeBlock closed
      exact left
    · exact layers_take_within isStart isEnd taken

/-! ## The layers of an outline -/

/-- The layers around a body are what its outline says. -/
theorem around_layers_of_outline
    {state : State} {base : List Suspended}
    (outers : state.outer.map Suspended.outline = base) :
    state.layers.around =
      base.map fun suspended => (suspended.frame.entries, suspended.opening.outline) := by
  rw [← outers, List.map_map]
  unfold layers
  apply List.map_congr_left
  intro suspended _
  obtain ⟨frame, opening⟩ := suspended
  cases opening <;> rfl

/-- Where one body is left around, it gets the entries of the body in it. -/
theorem entries_unwind_of_layers
    {state : State} {entries : Mapping} {opening : Opening}
    (around : state.layers.around = [(entries, opening)]) :
    state.unwind.2 = opening.stores entries state.frame.entries := by
  obtain ⟨suspended, outermost, isLayer⟩ := List.map_eq_singleton_iff.mp around
  obtain ⟨rfl, rfl⟩ := Prod.mk.inj isLayer
  have outers : state.outer.map Suspended.outline = [suspended.outline] := by
    rw [outermost]
    rfl
  rw [entries_unwind_of_outline outers, Suspended.entriesAfter_outline, Opening.stores_outline]

end State

end GradleScript
