import GradleScript.Proofs.Script.Nesting
import GradleScript.Proofs.Script.Skipping
import GradleScript.Proofs.Simulation.Comments

namespace GradleScript

/-!
# Bodies with more of the script behind them

A body that is read on its own up to the brace that ends it is read inside a script up to the same
brace, whatever comes behind the brace there, where no names are read.  The body around goes on
with the entries that the body has on its own.
-/

namespace State

/-! ## What a body has collected -/

/-- Whether a body is read in a mode and inside further bodies, and what entries it has so far. -/
structure Collects
    (state : State) (mode : Mode) (around : List Suspended) (entries : Mapping) : Prop where
  mode : state.frame.mode = mode
  around : state.outer.map Suspended.outline = around
  entries : state.frame.entries = entries

namespace Collects

variable {state next : State} {mode : Mode} {around : List Suspended} {entries : Mapping}

/-- What is not seen when the text is read may change the entries alone. -/
theorem of_lexical
    (collects : state.Collects mode around entries)
    (same : next.lexical = state.lexical) :
    next.Collects mode around next.frame.entries := by
  have outlined := outline_of_lexical same
  refine ⟨(congrArg Outline.mode outlined).trans collects.mode, ?_, rfl⟩
  have outers : next.outline.outer = state.outline.outer := by rw [outlined]
  rw [outer_outline, outer_outline] at outers
  exact outers.trans collects.around

/-- What a body has collected is on the stored side. -/
theorem of_stored
    (collects : state.Collects mode around entries)
    (same : next.stored = state.stored) :
    next.Collects mode around entries := by
  have modes : next.frame.mode = state.frame.mode :=
    congrArg (fun body => body.frame.mode) same
  have outers : next.outer = state.outer :=
    congrArg (fun body => body.outer) same
  have sameEntries : next.frame.entries = state.frame.entries :=
    congrArg (fun body => body.frame.entries) same
  exact ⟨modes.trans collects.mode, outers ▸ collects.around, sameEntries.trans collects.entries⟩

/-- A line that records a value adds it to the entries. -/
theorem readsLines_record
    {closures : Closures} {rest key : Text} {value : Value}
    (collects : state.Collects mode around entries)
    (reads : ReadsLines closures state rest (state.stored.record key value)) :
    ∃ next,
      Reaches closures state next ∧ next.AtLine ∧ next.session.rest = rest ∧
        next.Collects mode around (entries.add key value) := by
  obtain ⟨next, reaches, atLine, text, stored⟩ := reads
  have stays : state.stored.Collects mode around entries :=
    ⟨collects.mode, collects.around, collects.entries⟩
  have recorded := stays.of_lexical (lexical_record state.stored key value)
  rw [entries_record, stays.entries] at recorded
  have here : next.stored.Collects mode around (entries.add key value) := stored ▸ recorded
  exact ⟨next, reaches, atLine, text, ⟨here.mode, here.around, here.entries⟩⟩

end Collects

/-! ## Into the body of a block -/

/-- A body that waits for the end of a block in it. -/
def waitingFor (mode : Mode) (entries : Mapping) (key : Text) : Suspended :=
  ⟨{ mode := mode, entries := entries }, .block key false⟩

/-- What is left after a block is merged into the waiting entries. -/
theorem entriesAfter_waitingFor
    {key : Text}
    (notEmpty : key ≠ [])
    (mode : Mode) (entries nested : Mapping) :
    (waitingFor mode entries key).entriesAfter nested =
      entries.put key (Mapping.mergeValue (entries.get? key) (.mapping nested)) := by
  have keyed : key.isEmpty = false := by simpa using notEmpty
  unfold waitingFor Suspended.entriesAfter
  dsimp only
  rw [keyed, if_neg Bool.false_ne_true]

/-- The first line of a block begins with the outline of a body on its own. -/
theorem AtLine.exists_reaches_inBlock
    {closures : Closures} {state : State} {mode : Mode} {around : List Suspended}
    {entries : Mapping} {inner : Text}
    (atLine : state.AtLine)
    (tidy : state.session.comment.Tidy)
    (collects : state.Collects mode around entries)
    (key : Plain.Key)
    (ordinary : closures.find? key.word = none)
    (text : state.session.rest = key.word ++ ' ' :: '{' :: '\n' :: inner)
    (alone : Text) (restricted : Bool) (journal : Journal) :
    ∃ inside,
      Reaches closures state inside ∧ inside.session.rest = inner ∧
        inside.outline =
          (State.start (Session.ofText alone restricted journal) mode false).outline.within
            (waitingFor mode entries key.word :: around) := by
  have place : state.session.rest = key.word ++ [' '] ++ '{' :: '\n' :: inner := by
    rw [text, List.append_assoc]
    rfl
  have enters :=
    atLine.reaches_enterBlock place key.notEmpty (fun ch member => (key.solid ch member).other)
      (fun ch member => (key.solid ch member).notBlank) key.notKeyword ordinary (by simp)
  let opened := ((state.inLine ('\n' :: inner) {} none).withLineStart true).enterBlock key.word
  have openedCalm : opened.Calm := ⟨atLine.calm.comment, atLine.calm.name, atLine.calm.quote⟩
  have lineEnd := openedCalm.steps_lineEnd closures rfl rfl
  refine ⟨_, enters.tail lineEnd, rfl, ?_⟩
  have waiting :
      Suspended.outline
          ⟨((state.inLine ('\n' :: inner) {} none).withLineStart true).frame,
            .block key.word state.session.interpolation.inDependencies⟩ =
        waitingFor mode entries key.word := by
    unfold waitingFor
    rw [← collects.mode, ← collects.entries]
    rfl
  have outers :
      opened.outline.outer = [] ++ waitingFor mode entries key.word :: around := by
    rw [outer_outline, ← waiting, ← collects.around]
    rfl
  unfold outline Outline.within
  simp only [Outline.mk.injEq]
  exact ⟨collects.mode, rfl, rfl, rfl, rfl, rfl, tidy atLine.calm.comment, atLine.calm.name, outers⟩

/-! ## Out of the body of a block -/

/-- Where a brace finishes a body, nothing is pending but the statement that it ends. -/
theorem calm_closedAt
    {state : State} {ch : Char} {rest : Text}
    (turn : (state.settle ch).turn ch rest = .blockEnd) :
    (state.closedAt ch rest).Calm := by
  obtain ⟨commentClosed, noName, quoteClosed⟩ := contexts_closed_of_turn (.inr turn)
  let ended := ((state.settle ch).withLineStart false).withRest rest
  have calm : ended.Calm := ⟨commentClosed, noName, quoteClosed⟩
  exact calm.of_contexts (contexts_flush ended)

/-- A brace finishes bodies with the same outline alike, whatever comes behind it. -/
theorem SameOutline.closedAt
    {follows : Text → Text → Prop} {base : List Suspended} {first second : State}
    (same : SameOutline follows base first second)
    (noName : first.session.interpolation.form = none)
    (otherNoName : second.session.interpolation.form = none)
    (ch : Char) (rest otherRest : Text) :
    SameOutline (fun _ _ => True) base (first.closedAt ch rest) (second.closedAt ch otherRest) := by
  have anywhere : SameOutline (fun _ _ => True) base first second :=
    ⟨trivial, same.outline, same.alone⟩
  have simulation := simulation_sameOutline (fun _ _ => True) base
  unfold State.closedAt
  rw [settle_of_noName noName, settle_of_noName otherNoName]
  exact simulation.flush (simulation.withRest trivial (simulation.withLineStart false anywhere))

/-- The brace that ends a body on its own ends it inside further bodies, too: the innermost of these
gets the entries that the body has on its own. -/
theorem ReadsBody.exists_steps_brace
    {closures : Closures} {after : Text} {waiting : Suspended} {base : List Suspended}
    {first last atBrace : State}
    (reading : ReadsBody closures first last)
    (same : SameOutline (SameFront ['}'] ('}' :: after)) (waiting :: base) last atBrace)
    (text : atBrace.session.rest = '}' :: after)
    (nameless : last.Nameless)
    (otherNameless : atBrace.Nameless)
    (idle : waiting.frame.Idle) :
    ∃ next,
      Steps closures atBrace next ∧ next.AtLine ∧ next.session.rest = after ∧
        next.Collects waiting.frame.mode base (waiting.entriesAfter (first.run closures).2) := by
  obtain ⟨closing, alone⟩ := reading.closing
  have noneBegins := beginsName_of_dollarIsPlain (nameless.dollar '}' [] reading.brace)
  have noneBeginsThere := beginsName_of_dollarIsPlain (otherNameless.dollar '}' after text)
  have noComment : commentAt? ('}' :: after) = commentAt? ['}'] := by
    rw [commentAt?_of_ne_slash (by decide), commentAt?_of_ne_slash (by decide)]
  have turn : (atBrace.settle '}').turn '}' after = .blockEnd := by
    rw [settle_of_noName otherNameless.noName,
      (simulation_sameOutline _ _).turn_eq same (noneBeginsThere.trans noneBegins.symm) noComment]
    have turnAlone := closing.turn
    rw [settle_of_noName nameless.noName] at turnAlone
    exact turnAlone
  have closedSame := same.closedAt nameless.noName otherNameless.noName '}' [] after
  have outers : (atBrace.closedAt '}' after).outer.map Suspended.outline = waiting :: base := by
    rw [closedSame.outer_eq, alone]
    rfl
  obtain ⟨suspended, outer, around, isWaiting, isBase⟩ := List.map_eq_cons_iff.mp outers
  have inBlock : atBrace.outer ≠ [] := by
    rw [ne_eq, ← outer_closedAt_eq_nil_iff atBrace '}' after, around]
    exact List.cons_ne_nil suspended outer
  have steps := step_of_closing closures text ⟨turn, .inl inBlock⟩
  simp only [around] at steps
  have resumed := lexical_resume (atBrace.closedAt '}' after) suspended outer
  have outlined := outline_resume (atBrace.closedAt '}' after) suspended outer
  have statement : suspended.frame.statement = {} :=
    (congrArg (fun body => body.frame.statement) isWaiting).trans idle.statement
  have lineStart : suspended.frame.lineStart = true :=
    (congrArg (fun body => body.frame.lineStart) isWaiting).trans idle.lineStart
  refine ⟨_, steps, ⟨(calm_closedAt turn).resume suspended outer, ?_, ?_⟩, ?_, ⟨?_, ?_, ?_⟩⟩
  · exact (statement_resume _ suspended outer).trans statement
  · exact (congrArg (fun body => body.frame.lineStart) resumed).trans lineStart
  · exact (rest_resume _ suspended outer).trans (rest_closedAt atBrace '}' after)
  · have modes := congrArg Outline.mode outlined
    exact modes.trans (congrArg (fun body => body.frame.mode) isWaiting)
  · rw [← outer_outline, outlined]
    exact isBase
  · rw [entries_resume, ← Suspended.entriesAfter_outline, isWaiting, closedSame.entries_eq,
      reading.entries_run]

/-! ## Through the block of a script -/

section Script

variable {closures : Closures} {text body : Text} {restricted there : Bool}
  {journal journalThere : Journal} {mode : Mode} {last : State}

/-- Inside a script, the reading of a body comes to the end of the line before the brace that ends
the body on its own, whatever comes after the line there, or looks ahead over it. -/
theorem ReadsBody.exists_reaches_seam
    {inside : State} {base : List Suspended} {otherTail : Text}
    (reading :
      ReadsBody closures
        (State.start (Session.ofText (Script.closedBody body) there journalThere) mode false) last)
    (noArrays : ∀ key, closures.find? key ≠ some .array)
    (unreadAlone : NamesUnread (Script.closedBody body) there)
    (unread : NamesUnread text restricted)
    (enters :
      Reaches closures (State.start (Session.ofText text restricted journal) {} true) inside)
    (place : inside.session.rest = body ++ '\n' :: otherTail)
    (outline :
      inside.outline =
        (State.start (Session.ofText (Script.closedBody body) there journalThere) mode
          false).outline.within base) :
    (∃ atEnd,
        Reaches closures inside atEnd ∧
          SameOutline (SameFront ['}'] otherTail) base last atEnd) ∨
      Continues otherTail ∧
        ∀ other, Reaches closures inside other → other.session.rest ≠ otherTail := by
  have seam : Seam ['}'] otherTail (body ++ ['\n']) :=
    ⟨⟨_, .inr rfl⟩, .inr List.getLast?_concat⟩
  have closedLines : Script.closedBody body = body ++ ['\n'] ++ ['}'] := by
    simp [Script.closedBody]
  have simulation := simulation_sameOutline (SameFront ['}'] otherTail) base
  have same :
      SameOutline (SameFront ['}'] otherTail) base
        (State.start (Session.ofText (Script.closedBody body) there journalThere) mode false)
        inside := by
    refine
      ⟨⟨body ++ ['\n'], closedLines, ?_⟩, outline, fun isScript =>
        (Bool.false_ne_true isScript).elim⟩
    simp [place]
  have whole : inside.wholeScript = true := Reaches.wholeScript_eq enters
  exact
    reaches_seam (fun _ _ related => related.rest) same whole
      (fun state other reached otherReached related =>
        simulation.stepsToSeam seam (closedLines ▸ reached.rest_suffix) noArrays related
          (Reaches.writtenIn_of_unread unreadAlone reached).2
          (Reaches.writtenIn_of_unread unread (enters.trans otherReached)).2)
      reading.reaches reading.brace

/-- Inside a script, the reading of a body comes to the brace that ends the body on its own. -/
theorem ReadsBody.exists_reaches_brace
    {inside : State} {base : List Suspended} {after : Text}
    (reading :
      ReadsBody closures
        (State.start (Session.ofText (Script.closedBody body) there journalThere) mode false) last)
    (noArrays : ∀ key, closures.find? key ≠ some .array)
    (unreadAlone : NamesUnread (Script.closedBody body) there)
    (unread : NamesUnread text restricted)
    (enters :
      Reaches closures (State.start (Session.ofText text restricted journal) {} true) inside)
    (place : inside.session.rest = Script.closedBody body ++ after)
    (outline :
      inside.outline =
        (State.start (Session.ofText (Script.closedBody body) there journalThere) mode
          false).outline.within base) :
    ∃ atBrace,
      Reaches closures inside atBrace ∧
        SameOutline (SameFront ['}'] ('}' :: after)) base last atBrace := by
  have linesPlace : inside.session.rest = body ++ '\n' :: '}' :: after := by
    simp [place, Script.closedBody]
  exact
    (reading.exists_reaches_seam noArrays unreadAlone unread enters linesPlace
      outline).resolve_right fun overtaken => not_continues_brace after overtaken.1

/-- A block of a script is read to the line end after it, and the body around gets the entries that
the body of the block has on its own. -/
theorem ReadsBody.exists_reaches_afterBlock
    {state : State} {around : List Suspended} {entries : Mapping} {after : Text}
    (reading :
      ReadsBody closures
        (State.start (Session.ofText (Script.closedBody body) there journalThere) mode false) last)
    (noArrays : ∀ key, closures.find? key ≠ some .array)
    (unreadAlone : NamesUnread (Script.closedBody body) there)
    (unread : NamesUnread text restricted)
    (enters :
      Reaches closures (State.start (Session.ofText text restricted journal) {} true) state)
    (atLine : state.AtLine)
    (collects : state.Collects mode around entries)
    (key : Plain.Key)
    (ordinary : closures.find? key.word = none)
    (place :
      state.session.rest =
        key.word ++ ' ' :: '{' :: '\n' :: (Script.closedBody body ++ '\n' :: after)) :
    ∃ next,
      Reaches closures state next ∧ next.AtLine ∧ next.session.rest = after ∧
        next.Collects mode around
          (entries.put key.word
            (Mapping.mergeValue (entries.get? key.word)
              (.mapping
                ((State.start (Session.ofText (Script.closedBody body) there journalThere) mode
                  false).run closures).2))) := by
  have tidy : state.session.comment.Tidy := enters.comment_tidy fun _ => rfl
  obtain ⟨inside, opens, insideText, outline⟩ :=
    atLine.exists_reaches_inBlock tidy collects key ordinary place (Script.closedBody body) there
      journalThere
  obtain ⟨atBrace, reaches, same⟩ :=
    reading.exists_reaches_brace noArrays unreadAlone unread (enters.trans opens) insideText outline
  have fronts := same.rest
  rw [reading.brace] at fronts
  have reachesBrace := (enters.trans opens).trans reaches
  obtain ⟨closed, brace, closedAtLine, closedText, closedCollects⟩ :=
    reading.exists_steps_brace same fronts.eq_of_tail
      (Reaches.writtenIn_of_unread unreadAlone reading.reaches).2
      (Reaches.writtenIn_of_unread unread reachesBrace).2 ⟨rfl, rfl, rfl⟩
  rw [entriesAfter_waitingFor key.notEmpty] at closedCollects
  obtain ⟨next, lineEnd, nextAtLine, nextText, nextStored⟩ :=
    closedAtLine.done.steps closures closedText
  rw [closedAtLine.flush_eq] at nextStored
  exact
    ⟨next, ((opens.trans reaches).tail brace).tail lineEnd, nextAtLine, nextText,
      closedCollects.of_stored nextStored⟩

end Script

end State

end GradleScript
