import GradleScript.Proofs.Simulation.Closed
import GradleScript.Proofs.Simulation.Ending
import GradleScript.Proofs.Simulation.Unread
import GradleScript.Script

namespace GradleScript

/-!
# The end of a script closes everything

A script that is cut off denotes what it denotes with closing braces after it, each at the
beginning of a line, and leaves the same variables: braces that close its bodies do what the end
of the text does, and those for which no body is open do nothing.  What the end of the text would
cut off and keep with its text has to end in the script, though: every array literal, and every
call in the block of repositories.
-/

/-- The only closure that every run has is the one of the block of repositories. -/
theorem Closures.find?_standard
    (key : Text) :
    Closures.standard.find? key =
      if key = Closures.repositoriesKey then some .repositories else none := by
  unfold Closures.find? Closures.standard Closures.register
  by_cases isRepositories : key = Closures.repositoriesKey
  · rw [if_pos isRepositories, isRepositories]
    simp
  · rw [if_neg isRepositories]
    simp [Ne.symm isRepositories]

/-- No block of the standard table is read as an array. -/
theorem Closures.find?_standard_ne_array
    (key : Text) :
    Closures.standard.find? key ≠ some .array := by
  rw [Closures.find?_standard]
  split <;> exact nofun

/-- No block of the standard table is read as a body of a mode. -/
theorem Closures.find?_standard_ne_body
    (key : Text) (mode : Mode) :
    Closures.standard.find? key ≠ some (.body mode) := by
  rw [Closures.find?_standard]
  split <;> exact nofun

namespace State

/-- Closers after a text of which every kept part ends in the text change nothing. -/
theorem Alike.outcome_run_closedBy
    {closures : Closures} {closers : Text} {first second : State}
    (alike : Alike (ClosedBy closers) first second)
    (whole : first.wholeScript = true)
    (otherWhole : second.wholeScript = true)
    (keeps : ∀ state, Reaches closures first state → state.KeepsWhole closures)
    (waits : second.Waits)
    (apart : second.CommentApart) :
    outcome (second.run closures) = outcome (first.run closures) := by
  have simulation := namingSimulation_alike (ClosedBy closers)
  have keepsAlike (state other : State)
      (reached : Reaches closures first state)
      (stillAlike : Alike (ClosedBy closers) state other) :
      KeepsAlike (ClosedBy closers) closures state other :=
    (keeps state reached).keepsAlike stillAlike.rest
  obtain ⟨last, reaches, atEnd⟩ := exists_reaches_end closures whole
  obtain ⟨otherLast, otherReaches, lastAlike, lastWhole⟩ :=
    simulation.reaches (textSimulation_closedBy closers) alike otherWhole keepsAlike reaches
  have lastClosers : Closers otherLast.session.rest := by
    obtain ⟨left, isClosers, _, shape, _⟩ := lastAlike.rest
    rw [shape, atEnd]
    exact isClosers
  have flushed := simulation.flush (simulation.settleEnd lastAlike)
  calc
    outcome (second.run closures) = outcome (otherLast.run closures) := by
      rw [otherReaches.run_eq]
    _ = outcome otherLast.finish :=
      outcome_run_of_closers closures (otherReaches.commentApart apart) (otherReaches.waits waits)
        lastWhole lastClosers
    _ = outcome last.finish :=
      outcome_unwind_of_storedAlike flushed.stored
    _ = outcome (first.run closures) := by
      rw [run_eq_of_reaches_end reaches atEnd]

/-- A script that ends in a body around which there is at most one other is finished where that body
is left. -/
theorem run_of_readOn
    {closures : Closures} {state : State}
    (count : Nat)
    (atEnd : (readOn closures count state).session.rest = [])
    (noName : (readOn closures count state).session.interpolation.form = none)
    (alone : (readOn closures count state).flush.leaveBody.outer = []) :
    let last := (readOn closures count state).flush.leaveBody
    state.run closures = (last.session, last.frame.entries) := by
  intro last
  rw [run_eq_of_reaches_end (reaches_readOn closures count state) atEnd, finish_of_noName noName,
    ← unwind_leaveBody, unwind_of_alone alone]

/-- The mapping that a run of so many constructs ends with is what its last body and the one around
it have stored. -/
theorem mapping_run_of_readOn
    {closures : Closures} {state : State}
    (count : Nat)
    (atEnd : (readOn closures count state).session.rest = [])
    (noName : (readOn closures count state).session.interpolation.form = none)
    (alone : (readOn closures count state).flush.leaveBody.outer = []) :
    (state.run closures).2 = (readOn closures count state).flush.leaveBody.frame.entries :=
  congrArg Prod.snd (run_of_readOn count atEnd noName alone)

/-- The journal that a run of so many constructs ends with is the one that its last body leaves. -/
theorem journal_run_of_readOn
    {closures : Closures} {state : State}
    (count : Nat)
    (atEnd : (readOn closures count state).session.rest = [])
    (noName : (readOn closures count state).session.interpolation.form = none)
    (alone : (readOn closures count state).flush.leaveBody.outer = []) :
    (state.run closures).1.journal =
      (readOn closures count state).flush.leaveBody.session.journal :=
  congrArg (fun read => read.1.journal) (run_of_readOn count atEnd noName alone)

/-- What a script denotes, if so many constructs lead to its end, in a body around which there is at
most one other. -/
def mappingAfter? (closures : Closures) (count : Nat) (state : State) : Option Mapping :=
  let last := readOn closures count state
  if last.session.rest.isEmpty && last.session.interpolation.form.isNone &&
      last.flush.leaveBody.outer.isEmpty then
    some last.flush.leaveBody.frame.entries
  else
    none

/-- A mapping that has been computed by so many constructs is what the run ends with. -/
theorem mapping_run_of_mappingAfter?
    {closures : Closures} {state : State} {count : Nat} {entries : Mapping}
    (isMapping : mappingAfter? closures count state = some entries) :
    (state.run closures).2 = entries := by
  unfold mappingAfter? at isMapping
  dsimp only at isMapping
  split at isMapping
  · next ends =>
      simp only [Bool.and_eq_true, List.isEmpty_iff, Option.isNone_iff_eq_none] at ends
      obtain ⟨⟨atEnd, noName⟩, alone⟩ := ends
      exact (mapping_run_of_readOn count atEnd noName alone).trans (Option.some.inj isMapping)
  · cases isMapping

/-! ## Calls that are kept -/

/-- Whether every call that reading on from a state keeps with its text ends in the text. -/
def KeepsWholeCalls (closures : Closures) (state : State) : Prop :=
  ∀ later rest,
    Reaches closures state later →
      later.session.rest = '(' :: rest →
        (later.settle '(').turn '(' rest = .call →
          (later.settle '(').frame.KeepsCall →
            CallEnds ('(' :: rest)

/-- Whether no open body keeps calls. -/
def DiscardsCalls (state : State) : Prop :=
  state.frame.mode.keepCalls = false ∧
    ∀ suspended ∈ state.outer, suspended.frame.mode.keepCalls = false

/-- Whether calls are kept is part of what a body finds around it. -/
theorem discardsCalls_iff_surroundings
    (state : State) :
    state.DiscardsCalls ↔
      state.surroundings.frame.mode.keepCalls = false ∧
        ∀ suspended ∈ state.surroundings.outer, suspended.frame.mode.keepCalls = false := by
  have sameOuter :
      state.surroundings.outer = state.outer.map Suspended.unshared :=
    rfl
  rw [sameOuter]
  simp only [List.forall_mem_map]
  rfl

/-- Where the surroundings stay the same, calls go on being discarded. -/
theorem DiscardsCalls.of_surroundings
    {first second : State}
    (discards : first.DiscardsCalls)
    (same : second.surroundings = first.surroundings) :
    second.DiscardsCalls := by
  rw [discardsCalls_iff_surroundings] at discards ⊢
  rw [same]
  exact discards

/-- A block that is not the one of the repositories is read as the body around it. -/
theorem DiscardsCalls.openBlock
    {state : State} {rest : Text}
    (discards : state.DiscardsCalls)
    (elsewhere :
      ∀ opening ∈ (openBlock Closures.standard state rest).openings,
        opening.key ≠ Closures.repositoriesKey) :
    (openBlock Closures.standard state rest).DiscardsCalls := by
  unfold State.openBlock at elsewhere ⊢
  dsimp only at elsewhere ⊢
  rw [Closures.find?_standard] at elsewhere ⊢
  by_cases isRepositories :
      (if state.frame.statement.key.isEmpty then strip state.frame.statement.part
        else state.frame.statement.key) = Closures.repositoriesKey
  · rw [if_pos isRepositories] at elsewhere
    exact (elsewhere _ List.mem_cons_self isRepositories).elim
  · rw [if_neg isRepositories]
    exact ⟨discards.1, List.forall_mem_cons.mpr discards⟩

/-- The bodies around a finished one discard calls as they did before. -/
theorem DiscardsCalls.resume
    {state : State} {suspended : Suspended} {outer : List Suspended}
    (discards : state.DiscardsCalls)
    (around : state.outer = suspended :: outer) :
    (state.resume suspended outer).DiscardsCalls := by
  obtain ⟨_, outerDiscards⟩ := discards
  rw [around, List.forall_mem_cons] at outerDiscards
  have mode : (state.resume suspended outer).frame.mode = suspended.frame.mode :=
    congrArg (fun body => body.frame.mode) (lexical_resume state suspended outer)
  rw [discardsCalls_iff_surroundings, outer_surroundings_resume, List.forall_mem_map]
  exact ⟨(congrArg Mode.keepCalls mode).trans outerDiscards.1, outerDiscards.2⟩

/-- A closing brace ends no body but the current one, so calls go on being discarded. -/
theorem DiscardsCalls.closeBlock
    {state next : State} {rest : Text}
    (discards : state.DiscardsCalls)
    (closed : state.closeBlock rest = .running next) :
    next.DiscardsCalls := by
  have flushed : (state.withRest rest).flush.DiscardsCalls :=
    discards.of_surroundings (by simp)
  unfold State.closeBlock at closed
  dsimp only at closed
  split at closed
  · next suspended outer around =>
      cases closed
      exact flushed.resume around
  · split at closed
    · cases closed
      exact flushed
    · cases closed

/-- While no block of repositories is entered, no body keeps calls. -/
theorem Steps.discardsCalls
    {state next : State}
    (steps : Steps Closures.standard state next)
    (discards : state.DiscardsCalls)
    (elsewhere : ∀ opening ∈ next.openings, opening.key ≠ Closures.repositoriesKey) :
    next.DiscardsCalls := by
  obtain ⟨ch, rest, _, advanced⟩ := steps_iff.mp steps
  have settled : (state.settle ch).DiscardsCalls :=
    discards.of_surroundings (surroundings_settle state ch)
  unfold advance at advanced
  dsimp only at advanced
  by_cases isStart : (state.settle ch).turn ch rest = .blockStart
  · rw [isStart] at advanced
    cases advanced
    have inLine : ((state.settle ch).withLineStart false).DiscardsCalls := settled
    exact inLine.openBlock elsewhere
  · by_cases isEnd : (state.settle ch).turn ch rest = .blockEnd
    · rw [isEnd] at advanced
      have inLine : ((state.settle ch).withLineStart false).DiscardsCalls := settled
      exact inLine.closeBlock advanced
    · exact settled.of_surroundings (surroundings_take isStart isEnd advanced)

/-- In a text that does not contain the key of the repositories, and no name of which is read, no
call is kept. -/
theorem Reaches.discardsCalls_of_unread
    {text : Text} {restricted wholeScript : Bool} {journal : Journal} {later : State}
    (unread : NamesUnread text restricted)
    (noRepositories : ¬Closures.repositoriesKey <:+: text)
    (reaches :
      Reaches Closures.standard
        (start (Session.ofText text restricted journal) {} wholeScript) later) :
    ¬(later.settle '(').frame.KeepsCall := by
  have discards : later.DiscardsCalls := by
    induction reaches with
    | refl =>
        exact ⟨rfl, fun _ member => nomatch member⟩
    | tail reached steps inductionHypothesis =>
        obtain ⟨written, _⟩ := Reaches.writtenIn_of_unread unread (reached.tail steps)
        apply steps.discardsCalls inductionHypothesis
        intro opening member isRepositories
        exact noRepositories (isRepositories ▸ written.keys opening member)
  intro keepsCall
  have settled := discards.of_surroundings (surroundings_settle later '(')
  cases settled.1.symm.trans keepsCall.1

/-- Without repositories no call is kept, so none can be cut off by the end of the text. -/
theorem keepsWholeCalls_of_unread
    {text : Text} {restricted : Bool}
    (unread : NamesUnread text restricted)
    (noRepositories : ¬Closures.repositoriesKey <:+: text)
    (journal : Journal) (wholeScript : Bool) :
    KeepsWholeCalls Closures.standard
      (start (Session.ofText text restricted journal) {} wholeScript) :=
  fun _ _ reaches _ _ keepsCall =>
    (reaches.discardsCalls_of_unread unread noRepositories keepsCall).elim

end State

namespace Script

/-- The given number of closing braces, each at the beginning of a line. -/
def closingBraces (count : Nat) : Text :=
  (List.replicate count "\n\x7d".toList).flatten

/-- The braces that close so many bodies are closers. -/
theorem closers_closingBraces
    (count : Nat) :
    Closers (closingBraces count) := by
  induction count with
  | zero =>
      exact .nil
  | succ count inductionHypothesis =>
      exact .brace inductionHypothesis

/--
The end of a text closes everything: with any number of closing braces after it, each at the
beginning of a line, a script denotes the same and leaves the same variables, with whatever
variables the pass begins, restricted or not.  Every opening bracket of the text is followed by a
closing one, and no call that is kept, as calls are in the block of repositories, is cut off by
the end of the text.
-/
theorem parse_closingBraces
    (text : Text)
    (restricted : Bool)
    (journal : Journal)
    (count : Nat)
    (bracketsClose : ∀ before rest, text = before ++ '[' :: rest → ']' ∈ rest)
    (callsEnd :
      State.KeepsWholeCalls Closures.standard
        (State.start (Session.ofText text restricted journal) {} true)) :
    (parse Closures.standard restricted journal (text ++ closingBraces count)).1 =
        (parse Closures.standard restricted journal text).1 ∧
      (parse Closures.standard restricted journal (text ++ closingBraces count)).2.table =
        (parse Closures.standard restricted journal text).2.table := by
  let first := State.start (Session.ofText text restricted journal) {} true
  let second :=
    State.start (Session.ofText (text ++ closingBraces count) restricted journal) {} true
  have alike : State.Alike (ClosedBy (closingBraces count)) first second :=
    ⟨.append (closers_closingBraces count) text, rfl, rfl⟩
  have keeps (state : State) (reaches : State.Reaches Closures.standard first state) :
      state.KeepsWhole Closures.standard := by
    intro ch rest place
    have inText : ch :: rest <:+ text := place ▸ reaches.rest_suffix
    cases turn : (state.settle ch).turn ch rest with
    | call =>
        obtain rfl := State.eq_of_turn_call turn
        exact callsEnd state rest reaches place turn
    | array =>
        obtain rfl := State.eq_of_turn_array turn
        obtain ⟨before, shape⟩ := inText
        exact bracketsClose before rest shape.symm
    | blockStart =>
        intro isArray
        rw [Closures.find?_standard] at isArray
        split at isArray <;> cases isArray
    | _ =>
        trivial
  have same :=
    alike.outcome_run_closedBy rfl rfl keeps (fun _ member => nomatch member) nofun
  obtain ⟨sameMapping, sameTable⟩ := Prod.mk.inj same
  exact ⟨sameMapping, sameTable⟩

/-- A text that is cut off in the condition of a conditional, behind a list, denotes what it
denotes with two braces after it. -/
theorem parse_closingBraces_cutOffCondition :
    let text := "ext \x7b v [1]\n if (a \x7b 'b".toList
    (∀ before rest, text = before ++ '[' :: rest → ']' ∈ rest) ∧
      State.KeepsWholeCalls Closures.standard
        (State.start (Session.ofText text false {}) {} true) ∧
      (parse Closures.standard false {} (text ++ closingBraces 2)).1 =
          (parse Closures.standard false {} text).1 ∧
        (parse Closures.standard false {} (text ++ closingBraces 2)).2.table =
          (parse Closures.standard false {} text).2.table := by
  intro text
  have bracketsClose (before rest : Text) (shape : text = before ++ '[' :: rest) : ']' ∈ rest := by
    have parts :
        "ext \x7b v [1".toList ++ ']' :: "\n if (a \x7b 'b".toList = before ++ '[' :: rest :=
      shape
    obtain ⟨left, _, rfl⟩ := exists_eq_append_of_not_mem (by decide) parts
    exact List.mem_append_right left List.mem_cons_self
  have noDollar : '$' ∉ text := by decide
  have noRepositories : ¬Closures.repositoriesKey <:+: text := fun piece =>
    absurd (piece.subset (by decide : 's' ∈ Closures.repositoriesKey)) (by decide)
  have unread : NamesUnread text false := .inl noDollar
  have callsEnd := State.keepsWholeCalls_of_unread unread noRepositories {} true
  exact ⟨bracketsClose, callsEnd, parse_closingBraces text false {} 2 bracketsClose callsEnd⟩

/-- Where an interpolated name opens the block of repositories, a call that is cut off in it is
kept with everything that comes after it. -/
theorem parse_closingBraces_interpolatedKey :
    let text := "$a \x7b b(".toList
    let journal : Journal := ⟨⟨[("a".toList, .text Closures.repositoriesKey)]⟩, []⟩
    ¬Closures.repositoriesKey <:+: text ∧
      (∀ before rest, text = before ++ '[' :: rest → ']' ∈ rest) ∧
      (parse Closures.standard false journal (text ++ closingBraces 1)).1 ≠
        (parse Closures.standard false journal text).1 := by
  intro text journal
  have noRepositories : ¬Closures.repositoriesKey <:+: text := fun piece =>
    absurd (piece.subset (by decide : 's' ∈ Closures.repositoriesKey)) (by decide)
  have noBracket (before rest : Text) (shape : text = before ++ '[' :: rest) : ']' ∈ rest := by
    have member : '[' ∈ text := shape ▸ List.mem_append_right before List.mem_cons_self
    exact absurd member (by decide)
  have cutOff :
      (parse Closures.standard false journal text).1 =
        [(Closures.repositoriesKey,
          .list [.repository bareRepositoryKind [("name".toList, .text "b(".toList)]])] :=
    (State.mapping_run_of_readOn 7 (by decide +kernel) (by decide +kernel)
      (List.isEmpty_iff.mp (by decide +kernel))).trans (by decide +kernel)
  have continued :
      (parse Closures.standard false journal (text ++ closingBraces 1)).1 =
        [(Closures.repositoriesKey,
          .list [.repository bareRepositoryKind [("name".toList, .text "b(\n\x7d".toList)]])] :=
    (State.mapping_run_of_readOn 7 (by decide +kernel) (by decide +kernel)
      (List.isEmpty_iff.mp (by decide +kernel))).trans (by decide +kernel)
  refine ⟨noRepositories, noBracket, ?_⟩
  rw [cutOff, continued]
  simp

end Script

end GradleScript
