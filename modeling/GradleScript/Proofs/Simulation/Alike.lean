import GradleScript.Proofs.Simulation.Runs

namespace GradleScript

/-!
# States that cannot be told apart

Of a state only a part has an effect on what comes of it: not the size of the whole text, nor the
events so far, nor which quote a closed literal had, nor what came before the last character of a
comment, nor which character came before, apart from a backslash.  Two states that differ in nothing
else are alike.  They are read to states that are alike, names included, and denote the same.
-/

/-- A quote state without the mark of a literal that has been closed. -/
def Quote.unmarked (quote : Quote) : Quote :=
  if quote.isOpen then quote else .closed

/-- The mark of a literal that has been closed does not say whether a literal is open. -/
theorem Quote.isOpen_unmarked
    (quote : Quote) :
    quote.unmarked.isOpen = quote.isOpen := by
  unfold unmarked
  split
  · rfl
  · next isClosed =>
      exact (Bool.eq_false_iff.mpr isClosed).symm

/-- What the character before has an effect by: a backslash escapes. -/
def escapeOf (previous : Option Char) : Option Char :=
  if previous = some '\\' then previous else none

/-- A character escapes the next one exactly where it has its effect as a backslash. -/
theorem escapeOf_eq_iff
    (previous : Option Char) :
    escapeOf previous = some '\\' ↔ previous = some '\\' := by
  unfold escapeOf
  split <;> simp_all

/-- The next quote state depends on what has an effect alone. -/
theorem Quote.unmarked_next
    (quote : Quote) (ch : Char) (previous : Option Char) :
    (quote.next ch previous).unmarked =
      (quote.unmarked.next ch (escapeOf previous)).unmarked := by
  unfold next
  simp only [beq_iff_eq, escapeOf_eq_iff, isOpen_unmarked]
  by_cases isOpen : quote.isOpen = true
  · have same : quote.unmarked = quote := if_pos isOpen
    rw [same]
  · have isClosed : quote.unmarked = .closed := if_neg isOpen
    have unmarkedClosed : Quote.closed.unmarked = .closed := rfl
    rw [isClosed]
    simp only [isOpen, Bool.false_eq_true, if_false]
    repeat' split
    all_goals simp_all

/-- What a state has stored. -/
structure Storage where
  entries : Mapping
  shared : List Text
  outer : List Suspended
  inDependencies : Bool
  table : Variables

namespace State

/-! ## What has been stored -/

/-- What has been stored in a state. -/
def storage (state : State) : Storage where
  entries := state.frame.entries
  shared := state.frame.shared
  outer := state.outer
  inDependencies := state.session.interpolation.inDependencies
  table := state.session.journal.table

/-- Whether two states have stored the same. -/
abbrev StoredAlike (first second : State) : Prop :=
  second.storage = first.storage

/-- The table after a write depends on the table before it alone. -/
theorem table_set
    {journal other : Journal}
    (sameTable : other.table = journal.table)
    (name : Text) (value : Value) :
    (other.set name value).table = (journal.set name value).table := by
  unfold Journal.set
  dsimp only
  split
  · exact sameTable
  · rw [sameTable]

/-- Storing keeps what two states have stored the same. -/
theorem storeSimulation_storedAlike : StoreSimulation StoredAlike where
  entries alike := congrArg Storage.entries alike
  shared alike := congrArg Storage.shared alike
  outer alike := congrArg Storage.outer alike
  inDependencies alike := congrArg Storage.inDependencies alike
  withEntries entries alike :=
    congrArg (fun storage : Storage => { storage with entries := entries }) alike
  withShared shared alike :=
    congrArg (fun storage : Storage => { storage with shared := shared }) alike
  withOuter outer alike :=
    congrArg (fun storage : Storage => { storage with outer := outer }) alike
  withFrame frame alike :=
    congrArg
      (fun storage : Storage =>
        { storage with entries := frame.entries, shared := frame.shared })
      alike
  inContextOf inDependencies alike :=
    congrArg (fun storage : Storage => { storage with inDependencies := inDependencies }) alike
  set {first second} name value alike := by
    have sameTable := table_set (congrArg Storage.table alike) name value
    exact (congrArg (fun storage : Storage => { storage with
      table := (second.session.journal.set name value).table }) alike).trans
        (congrArg (fun table => { first.storage with table := table }) sameTable)
  grow name items alike :=
    congrArg (fun storage : Storage => { storage with table := storage.table.grow name items })
      alike
  report key count alike := alike

/-! ## What decides how the text is read -/

/-- What decides how a state is read on, the text apart. -/
def reading (state : State) : State :=
  { state.lexical with
    session := {
      state.lexical.session with
      size := 0
      rest := []
      quote := state.lexical.session.quote.unmarked
      comment := state.lexical.session.comment.recent }
    frame := {
      state.lexical.frame with
      previous := escapeOf state.lexical.frame.previous } }

/-- What decides how a state is read on is part of its lexical side. -/
theorem reading_congr
    {first second : State}
    (same : first.lexical = second.lexical) :
    first.reading = second.reading := by
  unfold reading
  rw [same]

/-- Whether two states are told apart at most by the texts that are left. -/
structure Alike (follows : Text → Text → Prop) (first second : State) : Prop where
  rest : follows first.session.rest second.session.rest
  reading : second.reading = first.reading
  stored : StoredAlike first second

variable {follows : Text → Text → Prop} {first second : State}

/-- What is stored alike in states that are alike leaves states that are alike. -/
theorem Alike.of_lexical
    {next other : State}
    (alike : Alike follows first second)
    (same : next.lexical = first.lexical)
    (otherSame : other.lexical = second.lexical)
    (stored : StoredAlike next other) :
    Alike follows next other := by
  have rests : next.session.rest = first.session.rest :=
    congrArg (fun body => body.session.rest) same
  have otherRests : other.session.rest = second.session.rest :=
    congrArg (fun body => body.session.rest) otherSame
  refine ⟨?_, ?_, stored⟩
  · rw [rests, otherRests]
    exact alike.rest
  · rw [reading_congr same, reading_congr otherSame]
    exact alike.reading

/-- Alike states go on alike with the same body around them. -/
theorem Alike.resume
    (alike : Alike follows first second)
    (suspended : Suspended) (outer : List Suspended) :
    Alike follows (first.resume suspended outer) (second.resume suspended outer) := by
  have enclosing (state : State) :
      (state.resume suspended outer).reading =
        { state.reading with
          session := {
            state.reading.session with
            interpolation := state.reading.resumedInterpolation suspended.opening }
          frame := {
            suspended.frame with
            entries := []
            shared := []
            previous := escapeOf suspended.frame.previous }
          outer := outer.map Suspended.unshared } := by
    refine (reading_congr (lexical_resume state suspended outer)).trans ?_
    cases opening : suspended.opening <;> rfl
  refine ⟨?_, ?_, storeSimulation_storedAlike.resume alike.stored suspended outer⟩
  · rw [rest_resume, rest_resume]
    exact alike.rest
  · rw [enclosing first, enclosing second, alike.reading]

/-- States that are alike, with the same character before, read the same body. -/
theorem Alike.frame_eq
    (alike : Alike follows first second)
    (samePrevious : second.frame.previous = first.frame.previous) :
    second.frame = first.frame := by
  have sameEntries : second.frame.entries = first.frame.entries :=
    congrArg Storage.entries alike.stored
  have sameShared : second.frame.shared = first.frame.shared :=
    congrArg Storage.shared alike.stored
  have sameMode : second.frame.mode = first.frame.mode :=
    congrArg (fun body => body.frame.mode) alike.reading
  have sameStatement : second.frame.statement = first.frame.statement :=
    congrArg (fun body => body.frame.statement) alike.reading
  have sameLineStart : second.frame.lineStart = first.frame.lineStart :=
    congrArg (fun body => body.frame.lineStart) alike.reading
  calc
    second.frame =
        ⟨second.frame.mode, second.frame.entries, second.frame.shared, second.frame.statement,
          second.frame.lineStart, second.frame.previous⟩ := rfl
    _ = first.frame := by
        rw [sameMode, sameEntries, sameShared, sameStatement, sameLineStart, samePrevious]

/-- A body that is entered alike leaves states that are alike. -/
theorem Alike.suspend
    (alike : Alike follows first second)
    (samePrevious : second.frame.previous = first.frame.previous)
    (opening : Opening) (mode : Mode) :
    Alike follows (first.suspend opening mode) (second.suspend opening mode) := by
  have sameFrame := alike.frame_eq samePrevious
  have entered (state : State) :
      (state.suspend opening mode).reading =
        { state.reading with
          frame := { mode := mode }
          outer := Suspended.unshared ⟨state.frame, opening⟩ :: state.reading.outer } :=
    rfl
  have stored (state : State) :
      (state.suspend opening mode).storage =
        { state.storage with
          entries := []
          shared := []
          outer := ⟨state.frame, opening⟩ :: state.storage.outer } :=
    rfl
  refine ⟨alike.rest, ?_, ?_⟩
  · rw [entered first, entered second, alike.reading, sameFrame]
  · unfold StoredAlike
    rw [stored first, stored second, alike.stored, sameFrame]

/-- The same interpolation may be set in states that are alike. -/
theorem Alike.withInterpolation
    (alike : Alike follows first second)
    (interpolation : Interpolation) :
    Alike follows (first.withInterpolation interpolation)
      (second.withInterpolation interpolation) :=
  ⟨alike.rest, congrArg (fun body => body.withInterpolation interpolation) alike.reading,
    congrArg (fun storage : Storage =>
      { storage with inDependencies := interpolation.inDependencies }) alike.stored⟩

/-- States that are alike have the same interpolation. -/
theorem Alike.interpolation
    (alike : Alike follows first second) :
    second.session.interpolation = first.session.interpolation :=
  congrArg (fun body => body.session.interpolation) alike.reading

/-- The elementary acts of reading, those of names included, keep states alike. -/
theorem namingSimulation_alike
    (follows : Text → Text → Prop) :
    NamingSimulation follows (Alike follows) where
  rest alike := alike.rest
  statement alike := congrArg (fun body => body.frame.statement) alike.reading
  mode alike := congrArg (fun body => body.frame.mode) alike.reading
  lineStart alike := congrArg (fun body => body.frame.lineStart) alike.reading
  commentOpen alike := congrArg (fun body => body.session.comment.isOpen) alike.reading
  form alike := congrArg (fun body => body.session.interpolation.form) alike.reading
  quoteOpen {first second} alike := by
    have sameQuote : second.session.quote.unmarked = first.session.quote.unmarked :=
      congrArg (fun body => body.session.quote) alike.reading
    rw [← Quote.isOpen_unmarked, sameQuote, Quote.isOpen_unmarked]
  withRest restsFollow alike := ⟨restsFollow, alike.reading, alike.stored⟩
  withStatement statement alike :=
    ⟨alike.rest, congrArg (fun body => body.withStatement statement) alike.reading, alike.stored⟩
  withPrevious previous alike :=
    ⟨alike.rest, congrArg (fun body => body.withPrevious (escapeOf previous)) alike.reading,
      alike.stored⟩
  withLineStart lineStart alike :=
    ⟨alike.rest, congrArg (fun body => body.withLineStart lineStart) alike.reading, alike.stored⟩
  withComment comment alike :=
    ⟨alike.rest, congrArg (fun body => body.withComment comment.recent) alike.reading,
      alike.stored⟩
  hearComment {first second} ch alike := by
    have sameComment : second.session.comment.recent = first.session.comment.recent :=
      congrArg (fun body => body.session.comment) alike.reading
    have sameHeard :
        (second.session.comment.hear [ch]).2.recent =
          (first.session.comment.hear [ch]).2.recent := by
      rw [← (Comment.hear_recent _ ch).2, sameComment, (Comment.hear_recent _ ch).2]
    refine ⟨?_, alike.rest, ?_, alike.stored⟩
    · rw [← (Comment.hear_recent _ ch).1, sameComment, (Comment.hear_recent _ ch).1]
    · have heard (state : State) :
          (state.withComment (state.session.comment.hear [ch]).2).reading =
            state.reading.withComment (state.session.comment.hear [ch]).2.recent :=
        rfl
      rw [heard first, heard second, alike.reading, sameHeard]
  closeQuote alike :=
    ⟨alike.rest, congrArg (fun body => body.withQuote .closed) alike.reading, alike.stored⟩
  hearQuote {first second} ch alike := by
    have heard (state : State) :
        (state.withQuote (state.session.quote.next ch state.frame.previous)).reading =
          state.reading.withQuote
            (state.reading.session.quote.next ch state.reading.frame.previous).unmarked := by
      have quotes := Quote.unmarked_next state.session.quote ch state.frame.previous
      exact congrArg (fun quote => state.reading.withQuote quote) quotes
    refine ⟨alike.rest, ?_, alike.stored⟩
    rw [heard first, heard second, alike.reading]
  record key value alike :=
    alike.of_lexical (lexical_record _ key value) (lexical_record _ key value)
      (storeSimulation_storedAlike.record alike.stored key value)
  storeClosure key value alike :=
    alike.of_lexical (lexical_storeClosure _ key value) (lexical_storeClosure _ key value)
      (storeSimulation_storedAlike.storeClosure alike.stored key value)
  enterBlock := by
    intro first second key alike samePrevious
    unfold enterBlock
    rw [alike.interpolation, congrArg Frame.mode (alike.frame_eq samePrevious)]
    exact (alike.suspend samePrevious _ _).withInterpolation _
  enterClosure key repositories mode alike samePrevious := alike.suspend samePrevious _ mode
  resume := by
    intro first second suspended outer alike around
    have sameOuter : second.outer = first.outer := congrArg Storage.outer alike.stored
    exact ⟨suspended, outer, sameOuter.trans around, alike.resume suspended outer⟩
  stray alike alone _ := by
    have sameOuter := congrArg Storage.outer alike.stored
    exact ⟨sameOuter.trans alone, alike.rest, alike.reading, alike.stored⟩
  interpolation alike := alike.interpolation
  escapes {first second} alike := by
    have sameEscape : escapeOf second.frame.previous = escapeOf first.frame.previous :=
      congrArg (fun body => body.frame.previous) alike.reading
    rw [← escapeOf_eq_iff, sameEscape, escapeOf_eq_iff]
  withInterpolation interpolation alike := alike.withInterpolation interpolation
  resolved {first second} name fallback alike := by
    have sameTable : second.session.journal.table = first.session.journal.table :=
      congrArg Storage.table alike.stored
    unfold Journal.resolve
    rw [sameTable]
    split <;> rfl
  resolve {first second} name fallback alike := by
    have sameTable : second.session.journal.table = first.session.journal.table :=
      congrArg Storage.table alike.stored
    have stored (state : State) :
        (state.withJournal (state.session.journal.resolve name fallback).2).storage =
          state.storage := by
      unfold Journal.resolve
      split <;> rfl
    refine ⟨alike.rest, alike.reading, ?_⟩
    exact (stored second).trans (alike.stored.trans (stored first).symm)

/-- Two scripts that are read from states that are alike denote the same, and leave the same
variables. -/
theorem Alike.run
    (alike : Alike Eq first second)
    (whole : first.wholeScript = true)
    (closures : Closures) :
    (first.run closures).2 = (second.run closures).2 ∧
      (first.run closures).1.journal.table = (second.run closures).1.journal.table := by
  have otherWhole : second.wholeScript = true :=
    (congrArg (fun body => body.wholeScript) alike.reading).trans whole
  obtain ⟨last, otherLast, stored, run, otherRun⟩ :=
    (namingSimulation_alike Eq).run storeSimulation_storedAlike
      (fun related => related.stored) alike whole otherWhole closures
  rw [run, otherRun]
  exact ⟨(congrArg Storage.entries stored).symm, (congrArg Storage.table stored).symm⟩

end State

end GradleScript
