import GradleScript.Proofs.Plain.Reading
import GradleScript.Proofs.Simulation.Closed
import GradleScript.Proofs.Simulation.Ending
import GradleScript.Proofs.Simulation.Outline
import GradleScript.Proofs.Simulation.Unread
import GradleScript.Script

namespace GradleScript

/-!
# Bodies denote the same wherever they stand

A text in which no name is read, and which is closed by a brace on the line after it and by no
earlier one, denotes as the body of a block what it denotes as a script.  Three readings are
compared: of the text as a script, of the text as a body up to the brace, and of the text as the
body of the block of a script.  The second one says where the text ends, and has the same outline
as each of the other two.
-/

namespace State

/-- What is related to a state before a line stands before a line, too. -/
theorem Simulation.atLine
    {follows : Text → Text → Prop} {related : State → State → Prop} {first second : State}
    (simulation : Simulation follows related)
    (areRelated : related first second)
    (atLine : first.AtLine) :
    second.AtLine where
  calm :=
    ⟨(simulation.commentOpen areRelated).trans atLine.calm.comment,
      (simulation.form areRelated).trans atLine.calm.name,
      (simulation.quoteOpen areRelated).trans atLine.calm.quote⟩
  statement := (simulation.statement areRelated).trans atLine.statement
  lineStart := (simulation.lineStart areRelated).trans atLine.lineStart

/-- A reading of a body that has come to the brace that ends it, the last character of the text. -/
structure ReadsBody (closures : Closures) (first last : State) : Prop where
  reaches : Reaches closures first last
  brace : last.session.rest = ['}']
  closed : ∃ session entries, last.step closures = .closed session entries

namespace ReadsBody

variable {closures : Closures} {first last middle : State}

/-- Every state of the reading comes before its end. -/
theorem reaches_last
    (reading : ReadsBody closures first last)
    (reached : Reaches closures first middle) :
    Reaches closures middle last := by
  rcases Relation.ReflTransGen.total_of_right_unique (steps_rightUnique closures) reached
    reading.reaches with before | after
  · exact before
  · rcases Relation.ReflTransGen.cases_head after with rfl | ⟨next, steps, _⟩
    · exact .refl
    · obtain ⟨session, entries, closed⟩ := reading.closed
      cases steps.symm.trans closed

/-- Before its end the reading goes on, and something is left of the text. -/
theorem exists_steps
    (reading : ReadsBody closures first last)
    (reached : Reaches closures first middle)
    (notAtBrace : middle.session.rest ≠ ['}']) :
    ∃ next, Steps closures middle next ∧ next.session.rest ≠ [] ∧ Reaches closures next last := by
  rcases Relation.ReflTransGen.cases_head (reading.reaches_last reached) with
    rfl | ⟨next, steps, nextReaches⟩
  · exact (notAtBrace reading.brace).elim
  · refine ⟨next, steps, ?_, nextReaches⟩
    intro nothing
    have bound := (Reaches.rest_suffix nextReaches).length_le
    rw [nothing, reading.brace, List.length_nil, List.length_singleton] at bound
    omega

/-- The brace at the end of the reading finishes the outermost body. -/
theorem closing
    (reading : ReadsBody closures first last) :
    Closing last '}' [] ∧ (last.closedAt '}' []).outer = [] := by
  obtain ⟨session, entries, closed⟩ := reading.closed
  have movement := movement_advance closures last '}' []
  have advanced : last.advance closures '}' [] = .closed session entries := by
    unfold step at closed
    rw [reading.brace] at closed
    exact closed
  rw [advanced] at movement
  cases movement with
  | finished closing alone =>
      exact ⟨closing, alone⟩

/-- No body is open at the end of the reading, nor a comment. -/
theorem outermost
    (reading : ReadsBody closures first last) :
    last.outer = [] ∧ last.session.comment.isOpen = false := by
  obtain ⟨closing, alone⟩ := reading.closing
  refine ⟨(outer_closedAt_eq_nil_iff last '}' []).mp alone, ?_⟩
  rw [← comment_settle last '}']
  exact (contexts_closed_of_turn (.inr closing.turn)).1

/-- The body denotes what it has at the brace, with the statement before that ended. -/
theorem entries_run
    (reading : ReadsBody closures first last) :
    (first.run closures).2 = (last.closedAt '}' []).frame.entries := by
  obtain ⟨closing, alone⟩ := reading.closing
  have closed := step_of_closing closures reading.brace closing
  rw [alone] at closed
  rw [reading.reaches.run_eq, run_eq_of_closed closed]

/-- The line end before the brace leads to it. -/
theorem steps_last
    (reading : ReadsBody closures first last)
    (reached : Reaches closures first middle)
    (text : middle.session.rest = ['\n', '}']) :
    Steps closures middle last := by
  obtain ⟨next, steps, _, nextReaches⟩ := reading.exists_steps reached (by rw [text]; decide)
  rcases Relation.ReflTransGen.cases_head nextReaches with rfl | ⟨after, afterSteps, afterReaches⟩
  · exact steps
  · have shorter := steps.length_rest_lt
    have muchShorter := afterSteps.length_rest_lt
    have bound := (Reaches.rest_suffix afterReaches).length_le
    rw [text] at shorter
    rw [reading.brace] at bound
    simp only [List.length_cons, List.length_nil] at shorter bound
    omega

/-- The line end before the brace ends the statement of the body. -/
theorem atLine
    (reading : ReadsBody closures first last)
    (reached : Reaches closures first middle)
    (text : middle.session.rest = ['\n', '}'])
    (noName : middle.session.interpolation.form = none)
    (apart : middle.CommentApart) :
    last.AtLine ∧ last.stored = middle.flush.stored := by
  have unique {next : State} (steps : Steps closures middle next) : next = last :=
    steps_rightUnique closures steps (reading.steps_last reached text)
  by_cases isOpen : middle.session.comment.isOpen = true
  · obtain ⟨empty, _, quoteClosed⟩ := apart isOpen
    obtain ⟨kind, inComment⟩ := Option.isSome_iff_exists.mp isOpen
    cases kind with
    | line =>
        have done : middle.LineDone := ⟨noName, quoteClosed, .inr ⟨inComment, empty⟩⟩
        obtain ⟨next, steps, nextAtLine, _, stored⟩ := done.steps closures text
        exact unique steps ▸ ⟨nextAtLine, stored⟩
    | block =>
        -- The comment would go on at the brace, which would then not end the body.
        have steps := steps_blockComment closures inComment noName (by decide) text
        have stillOpen := congrArg (fun state => state.session.comment.isOpen) (unique steps)
        cases stillOpen.trans reading.outermost.2
  · rw [Bool.not_eq_true] at isOpen
    have steps := steps_lineEnd closures isOpen noName text
    rw [← unique steps]
    exact ⟨atLine_readLineEnd isOpen noName '\n' ['}'], stored_readLineEnd middle '\n' ['}']⟩

/-- Before its end, the body is read alike with closers behind it in a script, and the reading there
goes on, too. -/
theorem goesOn_closedBy
    (reading : ReadsBody closures first last)
    {next other : State} {closers : Text}
    (reached : Reaches closures first middle)
    (steps : Steps closures middle next)
    (closed : ClosedBy closers middle.session.rest other.session.rest)
    (whole : other.wholeScript = true) :
    State.KeepsAlike (ClosedBy closers) closures middle other ∧
      ∃ otherNext, Steps closures other otherNext := by
  have nextLeft : next.session.rest ≠ [] := by
    intro nothing
    have inNothing := Reaches.rest_suffix (reading.reaches_last (reached.tail steps))
    rw [nothing, reading.brace] at inNothing
    cases List.suffix_nil.mp inNothing
  have otherLeft : other.session.rest ≠ [] := by
    rw [closed.eq_append steps.rest_ne_nil]
    exact List.append_ne_nil_of_left_ne_nil steps.rest_ne_nil closers
  exact
    ⟨(keepsWhole_of_steps steps nextLeft).keepsAlike closed,
      State.exists_steps closures whole otherLeft⟩

/-- Where the body has come to its brace after a line end, the same place in a script, with a line
end behind the brace, leaves only the bodies to be finished. -/
theorem outcome_run_atBrace
    (reading : ReadsBody closures first last)
    (atLine : last.AtLine)
    {related : State → State → Prop} {atBrace : State}
    (simulation : Simulation (ClosedBy ['\n']) related)
    (areRelated : related last atBrace)
    (waits : atBrace.Waits)
    (whole : atBrace.wholeScript = true) :
    outcome (atBrace.run closures) = outcome atBrace.unwind := by
  have atLineThere := simulation.atLine areRelated atLine
  have place := simulation.rest areRelated
  have text : atBrace.session.rest = ['}', '\n'] := by
    rw [place.eq_append (by simp [reading.brace]), reading.brace]
    rfl
  exact
    atLineThere.calm.outcome_run closures atLineThere.statement waits whole (.brace (.line .nil))
      (text ▸ List.suffix_cons '\n' ['}', '\n'])

/-- A brace that ends the outermost body closes the reading. -/
theorem of_closing
    (reaches : Reaches closures first last)
    (inBody : first.wholeScript = false)
    (brace : last.session.rest = ['}'])
    (turn : (last.settle '}').turn '}' [] = .blockEnd)
    (alone : last.outer = []) :
    ReadsBody closures first last := by
  have closing : Closing last '}' [] := ⟨turn, .inr (reaches.wholeScript_eq.trans inBody)⟩
  have closed := step_of_closing closures brace closing
  rw [(outer_closedAt_eq_nil_iff last '}' []).mpr alone] at closed
  exact ⟨reaches, brace, _, _, closed⟩

end ReadsBody

end State

namespace Script

open State

variable {closures : Closures} {body : Text} {last : State}

/-- The text of a body with the brace that ends it, on the line after it. -/
def closedBody (body : Text) : Text :=
  body ++ ['\n', '}']

/-- Whether the brace on the line after a text ends the text as a body, and no earlier brace
does. -/
def IsBody (closures : Closures) (body : Text) : Prop :=
  ∃ (restricted : Bool) (journal : Journal) (last : State),
    ReadsBody closures
      (State.start (Session.ofText (closedBody body) restricted journal) {} false) last

/-- Whether so many constructs of a body lead to the brace that ends it, on the line after it. -/
def endsAsBody (closures : Closures) (count : Nat) (body : Text) : Bool :=
  let last :=
    readOn closures count (State.start (Session.ofText (closedBody body) false {}) {} false)
  last.session.rest == ['}'] && (last.settle '}').turn '}' [] == .blockEnd && last.outer.isEmpty

/-- A body that so many constructs lead through is read as a body. -/
theorem readsBody_of_endsAsBody
    {count : Nat}
    (ends : endsAsBody closures count body = true) :
    ReadsBody closures (State.start (Session.ofText (closedBody body) false {}) {} false)
      (readOn closures count
        (State.start (Session.ofText (closedBody body) false {}) {} false)) := by
  unfold endsAsBody at ends
  dsimp only at ends
  simp only [Bool.and_eq_true, beq_iff_eq, List.isEmpty_iff] at ends
  obtain ⟨⟨brace, turn⟩, alone⟩ := ends
  exact .of_closing (reaches_readOn closures count _) rfl brace turn alone

/-- A brace behind a body adds no dollar sign to it. -/
theorem noDollar_closedBody
    (noDollar : '$' ∉ body) :
    '$' ∉ closedBody body := by
  simp [closedBody, noDollar]

/-! ## The body as a script -/

/-- A body that is read up to its brace is read as a script up to its end, which the line end
before the brace comes after. -/
theorem exists_reaches_lineEnd
    {there : Bool} {journalThere : Journal}
    (reading :
      ReadsBody closures
        (State.start (Session.ofText (closedBody body) there journalThere) {} false) last)
    (noDollar : '$' ∉ body)
    (restricted : Bool)
    (journal : Journal) :
    ∃ scriptEnd lineEnd,
      Reaches closures (State.start (Session.ofText body restricted journal) {} true) scriptEnd ∧
        Reaches closures
          (State.start (Session.ofText (closedBody body) there journalThere) {} false) lineEnd ∧
        SameOutline (ClosedBy ['\n', '}']) [] scriptEnd lineEnd ∧
        scriptEnd.session.rest = [] ∧ lineEnd.session.rest = ['\n', '}'] := by
  let first := State.start (Session.ofText body restricted journal) {} true
  let second := State.start (Session.ofText (closedBody body) there journalThere) {} false
  have isClosers : Closers ['\n', '}'] := .brace .nil
  have simulation := simulation_sameOutline (ClosedBy ['\n', '}']) []
  have same : SameOutline (ClosedBy ['\n', '}']) [] first second :=
    ⟨.append isClosers body, rfl, fun _ => rfl⟩
  have nameless (state other : State)
      (reached : Reaches closures first state)
      (otherReached : Reaches closures second other)
      (_ : SameOutline (ClosedBy ['\n', '}']) [] state other) :
      state.Nameless ∧ other.Nameless :=
    ⟨(Reaches.writtenIn_of_unread (.inl noDollar) reached).2,
      (Reaches.writtenIn_of_unread (.inl (noDollar_closedBody noDollar)) otherReached).2⟩
  have goesOn (state next other : State)
      (reached : Reaches closures first state)
      (steps : Steps closures state next)
      (otherReached : Reaches closures second other)
      (stillSame : SameOutline (ClosedBy ['\n', '}']) [] state other) :
      State.KeepsAlike (ClosedBy ['\n', '}']) closures state other ∧
        ∃ otherNext, Steps closures other otherNext := by
    have text := stillSame.rest.eq_append steps.rest_ne_nil
    have notAtBrace : other.session.rest ≠ ['}'] := by
      intro atBrace
      have lengths := congrArg List.length (text.symm.trans atBrace)
      rw [List.length_append] at lengths
      simp at lengths
    obtain ⟨otherNext, otherSteps, left, _⟩ := reading.exists_steps otherReached notAtBrace
    obtain ⟨isNameless, otherIsNameless⟩ := nameless state other reached otherReached stillSame
    exact
      ⟨simulation.keepsAlike_of_steps stillSame isNameless otherIsNameless isClosers otherSteps
        left, otherNext, otherSteps⟩
  have whole : first.wholeScript = true := rfl
  obtain ⟨scriptEnd, reaches, atEnd⟩ := exists_reaches_end closures whole
  obtain ⟨lineEnd, otherReaches, endSame⟩ :=
    simulation.reaches_of_steps (textSimulation_closedBy ['\n', '}']) same nameless goesOn reaches
  refine ⟨scriptEnd, lineEnd, reaches, otherReaches, endSame, atEnd, ?_⟩
  -- What is left there are closers, and no less than the brace; the brace alone is none.
  obtain ⟨left, leftClosers, inClosers, shape, _⟩ := endSame.rest
  have bound := (Reaches.rest_suffix (reading.reaches_last otherReaches)).length_le
  rw [atEnd, List.nil_append] at shape
  rw [reading.brace, shape] at bound
  rcases List.suffix_cons_iff.mp inClosers with wholeLeft | inBrace
  · rw [shape, wholeLeft]
  · have noLineEnd : '\n' ∉ left := fun member => absurd (inBrace.subset member) (by decide)
    cases leftClosers with
    | nil =>
        simp at bound
    | line | brace =>
        exact (noLineEnd List.mem_cons_self).elim

/-- A body that is read up to its brace, and as a script, has the same entries. -/
theorem parse_eq_entries
    {there : Bool} {journalThere : Journal}
    (reading :
      ReadsBody closures
        (State.start (Session.ofText (closedBody body) there journalThere) {} false) last)
    (noDollar : '$' ∉ body)
    (restricted : Bool)
    (journal : Journal) :
    last.AtLine ∧ (parse closures restricted journal body).1 = last.frame.entries := by
  let first := State.start (Session.ofText body restricted journal) {} true
  obtain ⟨scriptEnd, lineEnd, reaches, otherReaches, same, atEnd, text⟩ :=
    exists_reaches_lineEnd reading noDollar restricted journal
  have noName := (Reaches.writtenIn_of_unread (.inl noDollar) reaches).2.noName
  have otherNoName :=
    (Reaches.writtenIn_of_unread (.inl (noDollar_closedBody noDollar)) otherReaches).2.noName
  obtain ⟨lastAtLine, stored⟩ :=
    reading.atLine otherReaches text otherNoName (otherReaches.commentApart nofun)
  have flushed := (simulation_sameOutline (ClosedBy ['\n', '}']) []).flush same
  have alone : scriptEnd.flush.outer = [] := by
    have lastOuter : last.outer = lineEnd.flush.outer := congrArg (fun body => body.outer) stored
    have outers := flushed.outer_eq
    rw [← lastOuter, reading.outermost.1, List.append_nil, List.map_nil] at outers
    exact List.map_eq_nil_iff.mp outers.symm
  refine ⟨lastAtLine, ?_⟩
  calc
    (first.run closures).2 = scriptEnd.flush.frame.entries := by
      rw [run_eq_of_reaches_end reaches atEnd, finish_of_noName noName, unwind_of_alone alone]
    _ = lineEnd.flush.frame.entries :=
      flushed.entries_eq.symm
    _ = last.frame.entries :=
      congrArg (fun body => body.frame.entries) stored.symm

/-! ## The body of a block -/

/-- The text of a script that is one block. -/
def blockText (key body : Text) : Text :=
  key ++ [' ', '{', '\n'] ++ closedBody body ++ ['\n']

/-- A block adds no dollar sign to its body. -/
theorem noDollar_blockText
    (key : Plain.Key)
    (noDollar : '$' ∉ body) :
    '$' ∉ blockText key.word body := by
  have noDollarInKey : '$' ∉ key.word := fun member =>
    absurd (key.chars '$' member) (by decide)
  simp [blockText, noDollar_closedBody noDollar, noDollarInKey]

/-- A script that is one block comes to the beginning of the body, which has the outline of the
body on its own inside the block. -/
theorem exists_reaches_inBlock
    (key : Plain.Key)
    (ordinary : closures.find? key.word = none)
    (body : Text)
    (there restricted : Bool)
    (journalThere journal : Journal) :
    ∃ inside waiting,
      Reaches closures
          (State.start (Session.ofText (blockText key.word body) restricted journal) {} true)
          inside ∧
        SameOutline (ClosedBy ['\n']) [waiting]
          (State.start (Session.ofText (closedBody body) there journalThere) {} false) inside ∧
        ∀ nested, waiting.entriesAfter nested = [(key.word, .mapping nested)] := by
  let first := State.start (Session.ofText (blockText key.word body) restricted journal) {} true
  let rest := '\n' :: (closedBody body ++ ['\n'])
  have firstAtLine : first.AtLine := ⟨⟨rfl, rfl, rfl⟩, rfl, rfl⟩
  have text : first.session.rest = key.word ++ [' '] ++ '{' :: rest := by
    have shape : first.session.rest = blockText key.word body := rfl
    rw [shape]
    simp [blockText, rest]
  have opens :=
    firstAtLine.reaches_enterBlock text key.notEmpty
      (fun ch member => (key.solid ch member).other)
      (fun ch member => (key.solid ch member).notBlank)
      key.notKeyword ordinary (by simp)
  let opened := ((first.inLine rest {} none).withLineStart true).enterBlock key.word
  have ends : Steps closures opened (opened.readLineEnd '\n' (closedBody body ++ ['\n'])) :=
    steps_lineEnd closures rfl rfl rfl
  let waiting : Suspended :=
    Suspended.outline
      ⟨((first.inLine rest {} none).withLineStart true).frame, .block key.word false⟩
  have keyed : key.word.isEmpty = false := by simpa using key.notEmpty
  refine ⟨_, waiting, opens.tail ends, ⟨.append (.line .nil) (closedBody body), rfl, nofun⟩, ?_⟩
  intro nested
  have entries :
      waiting.entriesAfter nested =
        if key.word.isEmpty then Mapping.merge [] nested
        else [(key.word, .mapping nested)] :=
    rfl
  rw [entries, keyed]
  rfl

/-- A body that is read up to its brace is read inside a block up to the brace of the block. -/
theorem exists_reaches_atBrace
    {text : Text} {there restricted : Bool} {journalThere journal : Journal}
    {inside : State} {base : List Suspended}
    (reading :
      ReadsBody closures
        (State.start (Session.ofText (closedBody body) there journalThere) {} false) last)
    (noDollar : '$' ∉ body)
    (enters :
      Reaches closures (State.start (Session.ofText text restricted journal) {} true) inside)
    (noDollarAround : '$' ∉ text)
    {closers : Text}
    (same :
      SameOutline (ClosedBy closers) base
        (State.start (Session.ofText (closedBody body) there journalThere) {} false) inside) :
    ∃ atBrace,
      Reaches closures inside atBrace ∧ SameOutline (ClosedBy closers) base last atBrace := by
  let alone := State.start (Session.ofText (closedBody body) there journalThere) {} false
  have simulation := simulation_sameOutline (ClosedBy closers) base
  have nameless (state other : State)
      (reached : Reaches closures alone state)
      (otherReached : Reaches closures inside other)
      (_ : SameOutline (ClosedBy closers) base state other) :
      state.Nameless ∧ other.Nameless :=
    ⟨(Reaches.writtenIn_of_unread (.inl (noDollar_closedBody noDollar)) reached).2,
      (Reaches.writtenIn_of_unread (.inl noDollarAround) (enters.trans otherReached)).2⟩
  have goesOn (state next other : State)
      (reached : Reaches closures alone state)
      (steps : Steps closures state next)
      (otherReached : Reaches closures inside other)
      (stillSame : SameOutline (ClosedBy closers) base state other) :
      State.KeepsAlike (ClosedBy closers) closures state other ∧
        ∃ otherNext, Steps closures other otherNext := by
    exact
      reading.goesOn_closedBy reached steps stillSame.rest
        (Reaches.wholeScript_eq (enters.trans otherReached))
  exact
    simulation.reaches_of_steps (textSimulation_closedBy closers) same nameless goesOn
      reading.reaches

/-- The block of a script has the entries that its body has read up to its brace. -/
theorem parse_blockText
    {there : Bool} {journalThere : Journal}
    (reading :
      ReadsBody closures
        (State.start (Session.ofText (closedBody body) there journalThere) {} false) last)
    (lastAtLine : last.AtLine)
    (noDollar : '$' ∉ body)
    (key : Plain.Key)
    (ordinary : closures.find? key.word = none)
    (restricted : Bool)
    (journal : Journal) :
    (parse closures restricted journal (blockText key.word body)).1 =
      [(key.word, .mapping last.frame.entries)] := by
  let script := State.start (Session.ofText (blockText key.word body) restricted journal) {} true
  have noDollarInBlock := noDollar_blockText key noDollar
  obtain ⟨inside, waiting, enters, same, left⟩ :=
    exists_reaches_inBlock key ordinary body there restricted journalThere journal
  obtain ⟨atBrace, goesOn, endSame⟩ :=
    exists_reaches_atBrace reading noDollar enters noDollarInBlock same
  have reaches : Reaches closures script atBrace := enters.trans goesOn
  have ran : outcome (atBrace.run closures) = outcome atBrace.unwind :=
    reading.outcome_run_atBrace lastAtLine (simulation_sameOutline (ClosedBy ['\n']) [waiting])
      endSame (reaches.waits fun _ member => nomatch member) reaches.wholeScript_eq
  calc
    (script.run closures).2 = (atBrace.run closures).2 := by
      rw [reaches.run_eq]
    _ = atBrace.unwind.2 :=
      congrArg Prod.fst ran
    _ = waiting.entriesAfter last.frame.entries :=
      endSame.entries_unwind reading.outermost.1
    _ = [(key.word, .mapping last.frame.entries)] :=
      left last.frame.entries

/--
The body of a block denotes what it denotes as a script.  The text has no dollar sign, and the
brace on the line after it ends it as a body, and no earlier one does.  The key of the block may
be any ordinary one, that of the dependencies or of the variables as well.  In either place the
pass may begin with any variables, and be restricted or not.
-/
theorem parse_body_of_block
    (closures : Closures)
    (key : Plain.Key)
    (body : Text)
    (ordinary : closures.find? key.word = none)
    (noDollar : '$' ∉ body)
    (isBody : IsBody closures body)
    (restricted restrictedAlone : Bool)
    (journal journalAlone : Journal) :
    (parse closures restricted journal
        (key.word ++ " \x7b\n".toList ++ body ++ "\n\x7d\n".toList)).1 =
      [(key.word, .mapping (parse closures restrictedAlone journalAlone body).1)] := by
  obtain ⟨there, journalThere, last, reading⟩ := isBody
  obtain ⟨lastAtLine, entries⟩ := parse_eq_entries reading noDollar restrictedAlone journalAlone
  have shape :
      key.word ++ " \x7b\n".toList ++ body ++ "\n\x7d\n".toList = blockText key.word body := by
    simp [blockText, closedBody]
  rw [shape, entries]
  exact parse_blockText reading lastAtLine noDollar key ordinary restricted journal

/-- A body with a nested block, a comment that holds a brace, a conditional and a list. -/
theorem parse_body_of_block_variables :
    let key : Plain.Key := ⟨"ext".toList, by decide, by decide, by decide⟩
    let body := "a \x7b b 1 // \x7d\n\x7d\nif (c) \x7b d 2 \x7d\nv = [e]".toList
    Closures.standard.find? key.word = none ∧
      '$' ∉ body ∧
      IsBody Closures.standard body ∧
      (parse Closures.standard true {}
          (key.word ++ " \x7b\n".toList ++ body ++ "\n\x7d\n".toList)).1 =
        [(key.word, .mapping (parse Closures.standard false {} body).1)] := by
  intro key body
  let first := State.start (Session.ofText (closedBody body) false {}) {} false
  have ordinary : Closures.standard.find? key.word = none := by decide
  have noDollar : '$' ∉ body := by decide
  have reading : ReadsBody Closures.standard first (readOn Closures.standard 24 first) :=
    .of_closing (reaches_readOn Closures.standard 24 first) rfl (by decide +kernel)
      (by decide +kernel) (List.isEmpty_iff.mp (by decide +kernel))
  have isBody : IsBody Closures.standard body := ⟨false, {}, _, reading⟩
  exact
    ⟨ordinary, noDollar, isBody,
      parse_body_of_block Closures.standard key body ordinary noDollar isBody true false {} {}⟩

end Script

end GradleScript
