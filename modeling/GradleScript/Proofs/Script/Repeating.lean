import GradleScript.Proofs.Repositories.Bodies
import GradleScript.Proofs.Script.Comments
import GradleScript.Proofs.Simulation.Onto

namespace GradleScript

/-!
# Repeated blocks

A block that is repeated denotes what one block denotes with the statements of both, where merging
the second body into the first one and recording its statements come to the same: under the keys of
the first body the second one has nothing but nested blocks.  A value that comes again in one block
is collected in a list with the earlier one, and in a repeated block it replaces the earlier one.
-/

namespace State

/-! ## The mode of a body -/

/-- The modes in which the current body and those around it are read. -/
def modes (state : State) : List Mode :=
  state.frame.mode :: state.outer.map fun suspended => suspended.frame.mode

/-- The modes belong to the lexical side. -/
theorem modes_lexical
    (state : State) :
    state.lexical.modes = state.modes := by
  unfold modes lexical
  dsimp only
  rw [List.map_map]
  rfl

/-- The modes are part of the surroundings. -/
theorem modes_surroundings
    (state : State) :
    state.surroundings.modes = state.modes :=
  modes_lexical state

/-- The outermost body is read in one mode. -/
theorem Reaches.getLast?_modes
    {closures : Closures} {state later : State}
    (reaches : Reaches closures state later) :
    later.modes.getLast? = state.modes.getLast? := by
  induction reaches with
  | refl =>
      rfl
  | @tail middle next _ steps inductionHypothesis =>
      rw [← inductionHypothesis]
      obtain ⟨ch, rest, _, movement⟩ := steps.movement
      cases movement with
      | within surroundings =>
          rw [← modes_surroundings, surroundings, modes_surroundings]
      | into opening entering =>
          obtain ⟨waiting, _, sameMode, entered⟩ := entering.around
          have deeper : next.modes = next.frame.mode :: middle.modes := by
            rw [← modes_surroundings, entered, ← modes_surroundings middle]
            exact congrArg (fun mode => next.frame.mode :: mode :: _) sameMode
          rw [deeper]
          rfl
      | @outOf suspended outer closing around =>
          have deeper : middle.modes = (middle.closedAt ch rest).frame.mode ::
              ((middle.closedAt ch rest).resume suspended outer).modes := by
            rw [← modes_surroundings middle, ← surroundings_closedAt middle ch rest,
              modes_surroundings,
              ← modes_lexical ((middle.closedAt ch rest).resume suspended outer), lexical_resume,
              modes_lexical]
            unfold modes
            rw [around]
            rfl
          rw [deeper]
          rfl

/-- Outside its nested blocks a body is read in the mode in which it begins. -/
theorem Reaches.mode_eq
    {closures : Closures} {state later : State}
    (reaches : Reaches closures state later)
    (alone : state.outer = [])
    (laterAlone : later.outer = []) :
    later.frame.mode = state.frame.mode := by
  have modes := reaches.getLast?_modes
  unfold State.modes at modes
  rw [alone, laterAlone] at modes
  exact Option.some.inj modes

/-! ## From one body into the next one -/

/-- Before a line, and not behind a backslash, a body is read on as at its beginning. -/
theorem AtLine.outline_eq
    {state : State}
    (atLine : state.AtLine)
    (tidy : state.session.comment.Tidy)
    (unescaped : state.frame.previous ≠ some '\\')
    (alone : Text) (restricted : Bool) (journal : Journal) :
    state.outline =
      { (State.start (Session.ofText alone restricted journal) state.frame.mode false).outline with
        entries := state.frame.entries
        outer := state.outer.map Suspended.outline } := by
  have notOpen : ¬state.session.quote.isOpen = true := by simp [atLine.calm.quote]
  have quote : state.session.quote.unmarked = .closed := if_neg notOpen
  have escape : escapeOf state.frame.previous = none := if_neg unescaped
  rw [← outer_outline]
  unfold outline
  simp only [Outline.mk.injEq]
  exact
    ⟨rfl, atLine.statement, atLine.lineStart, escape, trivial, quote, tidy atLine.calm.comment,
      atLine.calm.name, trivial⟩

namespace ReadsBody

variable {closures : Closures} {first last : State}

/-- A body that comes to its brace after a line end denotes what it has there. -/
theorem entries_run_of_atLine
    (reading : ReadsBody closures first last)
    (atLine : last.AtLine) :
    (first.run closures).2 = last.frame.entries := by
  rw [reading.entries_run]
  unfold closedAt
  rw [settle_of_noName atLine.calm.name, entries_flush]
  unfold Frame.pending
  simp only [withRest, withLineStart, atLine.statement]
  rfl

/-- Where the reading of a body inside another one stands at the end of its lines, and not behind a
backslash, a further body is read on as at its beginning, onto the entries of the first one. -/
theorem readsOnto
    (reading : ReadsBody closures first last)
    (alone : first.outer = [])
    (plain : first.frame.mode = {})
    (atLine : last.AtLine)
    {follows : Text → Text → Prop} {waiting : Suspended} {atEnd : State}
    (same : SameOutline follows [waiting] last atEnd)
    (tidy : atEnd.session.comment.Tidy)
    (unescaped : atEnd.frame.previous ≠ some '\\')
    (noneWaiting : waiting.emptied = waiting)
    {body closers : Text} (restricted : Bool) (journal : Journal)
    (isClosers : Closers closers)
    (rest : atEnd.session.rest = body ++ closers) :
    ReadsOnto (ClosedBy closers) [waiting] last.frame.entries
      (State.start (Session.ofText body restricted journal) {} false) atEnd := by
  have simulation := simulation_sameOutline follows [waiting]
  have outermost := reading.outermost.1
  have outers : atEnd.outer.map Suspended.outline = [waiting] := by
    rw [same.outer_eq, outermost]
    rfl
  have mode : atEnd.frame.mode = {} :=
    (simulation.mode same).trans ((reading.reaches.mode_eq alone outermost).trans plain)
  have atLineThere := simulation.atLine same atLine
  have outlined := atLineThere.outline_eq tidy unescaped body restricted journal
  refine ⟨⟨rest ▸ .append isClosers body, ?_, nofun⟩, ?_, ⟨trivial, nofun⟩, ?_, rfl⟩
  · rw [outline_emptied, outlined, outers, mode, List.map_singleton, noneWaiting]
    rfl
  · have around := around_layers_of_outline outers
    have entries : atEnd.layers.entries = last.frame.entries := same.entries_eq
    exact congrArg₂ Layers.mk entries around
  · rfl

/-- What is stored under the statements of a body is read onto earlier entries up to the brace that
ends the body, if outside its nested blocks the body never has what does not go together with
them. -/
theorem exists_reaches_onto
    (reading : ReadsBody closures first last)
    (noArrays : ∀ key, closures.find? key ≠ some .array)
    (noBodies : ∀ key mode, closures.find? key ≠ some (.body mode))
    {closers : Text} {base : List Suspended} {earlier : Mapping} {second : State}
    (onto : ReadsOnto (ClosedBy closers) base earlier first second)
    (nameless : ∀ state, Reaches closures first state → state.Nameless)
    (otherNameless : ∀ other, Reaches closures second other → other.Nameless)
    (whole : second.wholeScript = true)
    (joined :
      ∀ state, Reaches closures first state → state.outer = [] →
        Mapping.joins earlier state.frame.entries = true) :
    ∃ atBrace,
      Reaches closures second atBrace ∧
        ReadsOnto (ClosedBy closers) base earlier last atBrace := by
  suffices along :
      ∀ state, Reaches closures first state →
        ∃ other,
          Reaches closures second other ∧
            ReadsOnto (ClosedBy closers) base earlier state other from
    along last reading.reaches
  intro state reached
  induction reached with
  | refl =>
      exact ⟨second, .refl, onto⟩
  | @tail state next reached steps inductionHypothesis =>
      obtain ⟨other, otherReached, stillOnto⟩ := inductionHypothesis
      obtain ⟨keeps, otherNext, otherSteps⟩ :=
        reading.goesOn_closedBy reached steps
          ((simulation_sameReading (ClosedBy closers) base).rest stillOnto.reading)
          (otherReached.wholeScript_eq.trans whole)
      exact
        ⟨otherNext, otherReached.tail otherSteps,
          stillOnto.steps (textSimulation_closedBy closers) noArrays noBodies
            (nameless state reached) (otherNameless other otherReached) keeps steps otherSteps
            (joined next (reached.tail steps))⟩

end ReadsBody

/-- Whether reading on from a state begins afresh at a text: the text is not passed over with a
conditional or a function that it continues, and no backslash is taken to stand before it. -/
structure BeginsAt (closures : Closures) (state : State) (text : Text) : Prop where
  comesTo : Continues text → ComesTo closures state text
  unescaped :
    ∀ later, Reaches closures state later → later.session.rest = text →
      later.frame.previous ≠ some '\\'

end State

namespace Script

open State

/-! ## Two blocks -/

section Blocks

variable {closures : Closures} {first second : Text} {lastFirst lastSecond : State}
  {thereFirst thereSecond : Bool} {journalFirst journalSecond : Journal}

/-- A block that is repeated has the entries of the second body merged into those of the first
one. -/
theorem parse_blockText_twice
    (noArrays : ∀ key, closures.find? key ≠ some .array)
    (readingFirst :
      ReadsBody closures
        (State.start (Session.ofText (closedBody first) thereFirst journalFirst) {} false)
        lastFirst)
    (readingSecond :
      ReadsBody closures
        (State.start (Session.ofText (closedBody second) thereSecond journalSecond) {} false)
        lastSecond)
    (firstAtLine : lastFirst.AtLine)
    (secondAtLine : lastSecond.AtLine)
    (noDollarFirst : '$' ∉ first)
    (noDollarSecond : '$' ∉ second)
    (key : Plain.Key)
    (ordinary : closures.find? key.word = none)
    (restricted : Bool)
    (journal : Journal) :
    (parse closures restricted journal (blockText key.word first ++ blockText key.word second)).1 =
      [(key.word, .mapping (Mapping.merge lastFirst.frame.entries lastSecond.frame.entries))] := by
  let text := blockText key.word first ++ blockText key.word second
  let script := State.start (Session.ofText text restricted journal) {} true
  have unread : NamesUnread text restricted := by
    refine .inl fun member => ?_
    rcases List.mem_append.mp member with inFirst | inSecond
    · exact noDollar_blockText key noDollarFirst inFirst
    · exact noDollar_blockText key noDollarSecond inSecond
  have atLine : script.AtLine := ⟨⟨rfl, rfl, rfl⟩, rfl, rfl⟩
  have collects : script.Collects {} [] [] := ⟨rfl, rfl, rfl⟩
  have place :
      script.session.rest =
        key.word ++ ' ' :: '{' :: '\n' ::
          (closedBody first ++ '\n' :: blockText key.word second) := by
    simp [text, script, State.start, Session.ofText, blockText]
  obtain ⟨between, reachesBetween, betweenAtLine, betweenText, betweenCollects⟩ :=
    readingFirst.exists_reaches_afterBlock noArrays (.inl (noDollar_closedBody noDollarFirst))
      unread .refl atLine collects key ordinary place
  rw [readingFirst.entries_run_of_atLine firstAtLine] at betweenCollects
  have betweenPlace :
      between.session.rest =
        key.word ++ ' ' :: '{' :: '\n' :: (closedBody second ++ '\n' :: []) := by
    simp [betweenText, blockText]
  obtain ⟨last, reachesLast, lastAtLine, lastText, lastCollects⟩ :=
    readingSecond.exists_reaches_afterBlock noArrays (.inl (noDollar_closedBody noDollarSecond))
      unread reachesBetween betweenAtLine betweenCollects key ordinary betweenPlace
  rw [readingSecond.entries_run_of_atLine secondAtLine] at lastCollects
  have alone : last.outer = [] := List.map_eq_nil_iff.mp lastCollects.around
  have reaches : Reaches closures script last := reachesBetween.trans reachesLast
  calc
    (script.run closures).2 = last.frame.entries := by
      rw [run_eq_of_reaches_end reaches lastText, finish_of_noName lastAtLine.calm.name,
        lastAtLine.flush_eq, unwind_of_alone alone]
    _ = Mapping.merge [(key.word, .mapping lastFirst.frame.entries)]
          [(key.word, .mapping lastSecond.frame.entries)] := by
      rw [lastCollects.entries, Mapping.merge, Mapping.merge]
      rfl
    _ = [(key.word, .mapping (Mapping.merge lastFirst.frame.entries lastSecond.frame.entries))] :=
      Mapping.merge_mappings key.word _ _

/-! ## One block -/

/-- In one block, the reading comes to the end of the first of two bodies. -/
theorem exists_reaches_between
    (noArrays : ∀ key, closures.find? key ≠ some .array)
    (readingFirst :
      ReadsBody closures
        (State.start (Session.ofText (closedBody first) thereFirst journalFirst) {} false)
        lastFirst)
    (noDollarFirst : '$' ∉ first)
    (noDollarSecond : '$' ∉ second)
    (key : Plain.Key)
    (ordinary : closures.find? key.word = none)
    (restricted : Bool)
    (journal : Journal)
    (comesTo :
      Continues (closedBody second ++ ['\n']) →
        ComesTo closures
          (State.start
            (Session.ofText (blockText key.word (first ++ '\n' :: second)) restricted journal) {}
            true)
          (closedBody second ++ ['\n'])) :
    ∃ between,
      Reaches closures
          (State.start
            (Session.ofText (blockText key.word (first ++ '\n' :: second)) restricted journal) {}
            true)
          between ∧
        SameOutline (SameFront ['}'] (closedBody second ++ ['\n'])) [waitingFor {} [] key.word]
          lastFirst between := by
  let text := blockText key.word (first ++ '\n' :: second)
  let script := State.start (Session.ofText text restricted journal) {} true
  have unread : NamesUnread text restricted :=
    .inl (noDollar_blockText key (by simp [noDollarFirst, noDollarSecond]))
  have atLine : script.AtLine := ⟨⟨rfl, rfl, rfl⟩, rfl, rfl⟩
  have collects : script.Collects {} [] [] := ⟨rfl, rfl, rfl⟩
  have whole :
      script.session.rest =
        key.word ++ ' ' :: '{' :: '\n' ::
          (first ++ '\n' :: (closedBody second ++ ['\n'])) := by
    simp [script, text, State.start, Session.ofText, blockText, closedBody]
  obtain ⟨inside, enters, place, outline⟩ :=
    atLine.exists_reaches_inBlock (fun _ => rfl) collects key ordinary whole (closedBody first)
      thereFirst journalFirst
  rcases readingFirst.exists_reaches_seam noArrays (.inl (noDollar_closedBody noDollarFirst)) unread
      enters place outline with
    ⟨between, reaches, same⟩ | ⟨continues, passes⟩
  · exact ⟨between, enters.trans reaches, same⟩
  · obtain ⟨later, reachesLater, laterText⟩ := comesTo continues
    rcases Relation.ReflTransGen.total_of_right_unique (steps_rightUnique closures) enters
        reachesLater with onward | before
    · exact (passes later onward laterText).elim
    · have bound := (Reaches.rest_suffix before).length_le
      rw [place, laterText, List.length_append, List.length_cons] at bound
      omega

/-- In one block, the second body is read up to its brace onto the entries of the first one. -/
theorem exists_reaches_joined
    (noArrays : ∀ key, closures.find? key ≠ some .array)
    (noBodies : ∀ key mode, closures.find? key ≠ some (.body mode))
    (readingFirst :
      ReadsBody closures
        (State.start (Session.ofText (closedBody first) thereFirst journalFirst) {} false)
        lastFirst)
    (readingSecond :
      ReadsBody closures
        (State.start (Session.ofText (closedBody second) thereSecond journalSecond) {} false)
        lastSecond)
    (joined :
      ∀ state,
        Reaches closures
            (State.start (Session.ofText (closedBody second) thereSecond journalSecond) {} false)
            state →
          state.outer = [] → Mapping.joins lastFirst.frame.entries state.frame.entries = true)
    (firstAtLine : lastFirst.AtLine)
    (noDollarFirst : '$' ∉ first)
    (noDollarSecond : '$' ∉ second)
    (key : Plain.Key)
    (ordinary : closures.find? key.word = none)
    (restricted : Bool)
    (journal : Journal)
    (begins :
      BeginsAt closures
        (State.start
          (Session.ofText (blockText key.word (first ++ '\n' :: second)) restricted journal) {}
          true)
        (closedBody second ++ ['\n'])) :
    ∃ atBrace,
      Reaches closures
          (State.start
            (Session.ofText (blockText key.word (first ++ '\n' :: second)) restricted journal) {}
            true)
          atBrace ∧
        ReadsOnto (ClosedBy ['\n']) [waitingFor {} [] key.word] lastFirst.frame.entries lastSecond
          atBrace := by
  have noDollarJoined : '$' ∉ blockText key.word (first ++ '\n' :: second) :=
    noDollar_blockText key (by simp [noDollarFirst, noDollarSecond])
  obtain ⟨between, enters, same⟩ :=
    exists_reaches_between noArrays readingFirst noDollarFirst noDollarSecond key ordinary
      restricted journal begins.comesTo
  have fronts := same.rest
  rw [readingFirst.brace] at fronts
  have place : between.session.rest = closedBody second ++ ['\n'] := fronts.eq_of_tail
  have tidy : between.session.comment.Tidy := enters.comment_tidy fun _ => rfl
  have onto :=
    readingFirst.readsOnto rfl rfl firstAtLine same tidy (begins.unescaped between enters place) rfl
      thereSecond journalSecond (.line .nil) place
  obtain ⟨atBrace, reaches, ontoThere⟩ :=
    readingSecond.exists_reaches_onto noArrays noBodies onto
      (fun _ reached =>
        (Reaches.writtenIn_of_unread (.inl (noDollar_closedBody noDollarSecond)) reached).2)
      (fun _ reached =>
        (Reaches.writtenIn_of_unread (.inl noDollarJoined) (enters.trans reached)).2)
      enters.wholeScript_eq joined
  exact ⟨atBrace, enters.trans reaches, ontoThere⟩

/-- At the brace of the one block, the entries of the second body are merged into those of the first
one, and the block denotes them. -/
theorem mapping_run_of_readsOnto
    {earlier : Mapping} {script atBrace : State}
    (readingSecond :
      ReadsBody closures
        (State.start (Session.ofText (closedBody second) thereSecond journalSecond) {} false)
        lastSecond)
    (secondAtLine : lastSecond.AtLine)
    (key : Plain.Key)
    (reaches : Reaches closures script atBrace)
    (waits : script.Waits)
    (whole : script.wholeScript = true)
    (onto :
      ReadsOnto (ClosedBy ['\n']) [waitingFor {} [] key.word] earlier lastSecond atBrace) :
    (script.run closures).2 =
      [(key.word, .mapping (Mapping.merge earlier lastSecond.frame.entries))] := by
  have ran : outcome (atBrace.run closures) = outcome atBrace.unwind :=
    readingSecond.outcome_run_atBrace secondAtLine (simulation_sameReading (ClosedBy ['\n']) _)
      onto.reading (reaches.waits waits) (reaches.wholeScript_eq.trans whole)
  have layersAlone : lastSecond.layers = ⟨lastSecond.frame.entries, []⟩ := by
    unfold layers
    rw [readingSecond.outermost.1]
    rfl
  have layersThere :
      atBrace.layers =
        ⟨Mapping.merge earlier lastSecond.frame.entries, [([], .block key.word false)]⟩ := by
    rw [onto.layers, layersAlone]
    rfl
  have around := congrArg Layers.around layersThere
  have entries := congrArg Layers.entries layersThere
  have keyed : key.word.isEmpty = false := by simpa using key.notEmpty
  calc
    (script.run closures).2 = atBrace.unwind.2 := by
      rw [reaches.run_eq]
      exact congrArg Prod.fst ran
    _ = (Opening.block key.word false).stores [] atBrace.frame.entries :=
      entries_unwind_of_layers around
    _ = (Opening.block key.word false).stores []
          (Mapping.merge earlier lastSecond.frame.entries) :=
      congrArg _ entries
    _ = [(key.word, .mapping (Mapping.merge earlier lastSecond.frame.entries))] := by
      unfold Opening.stores Suspended.entriesAfter
      dsimp only
      rw [keyed]
      rfl

end Blocks

/-! ## Repeated blocks -/

/-- Whether the brace on the line after a text ends it as a body, and no earlier brace does, and
what the body denotes goes together with earlier entries all along: wherever the reading stands
outside the nested blocks of the body, it has nothing but mappings under the keys of the earlier
entries, and every mapping in these is left a mapping. -/
def IsBodyOnto (closures : Closures) (earlier : Mapping) (body : Text) : Prop :=
  ∃ (restricted : Bool) (journal : Journal) (last : State),
    ReadsBody closures
        (State.start (Session.ofText (closedBody body) restricted journal) {} false) last ∧
      ∀ state,
        Reaches closures
            (State.start (Session.ofText (closedBody body) restricted journal) {} false) state →
          state.outer = [] → Mapping.joins earlier state.frame.entries = true

/--
Repeating a block is the same as writing its statements in one block, where the statements of the
second body go together with what the first one denotes: either way, the block has what the second
body denotes merged into what the first one denotes.  What the first block records then stays where
it is, unless the second one records something in the same place.  The bodies have no dollar sign.
In the one block, the second body is neither the alternative of a conditional that the first one
ends with, nor the body of a function, nor does a backslash come before it.
-/
theorem parse_repeated
    (key : Plain.Key)
    (first second : Text)
    (ordinary : Closures.standard.find? key.word = none)
    (noDollarFirst : '$' ∉ first)
    (noDollarSecond : '$' ∉ second)
    (restricted : Bool)
    (journal : Journal)
    (isBody : IsBody Closures.standard first)
    (isBodyOnto :
      IsBodyOnto Closures.standard (parse Closures.standard restricted journal first).1 second)
    (begins :
      BeginsAt Closures.standard
        (State.start
          (Session.ofText (blockText key.word (first ++ '\n' :: second)) restricted journal) {}
          true)
        (closedBody second ++ ['\n'])) :
    let mapping (text : Text) := (parse Closures.standard restricted journal text).1
    let once := mapping (blockText key.word (first ++ '\n' :: second))
    mapping (blockText key.word first ++ blockText key.word second) = once ∧
      once = [(key.word, .mapping (Mapping.merge (mapping first) (mapping second)))] ∧
      ∀ path value,
        (∀ entries, value ≠ .mapping entries) →
          Mapping.valueAt? (.mapping (mapping (blockText key.word first))) path = some value →
            Mapping.valueAt? (.mapping once) path =
              some
                ((Mapping.valueAt? (.mapping (mapping (blockText key.word second))) path).getD
                  value) := by
  intro mapping once
  obtain ⟨thereFirst, journalFirst, lastFirst, readingFirst⟩ := isBody
  obtain ⟨thereSecond, journalSecond, lastSecond, readingSecond, joined⟩ := isBodyOnto
  obtain ⟨firstAtLine, firstEntries⟩ :=
    parse_eq_entries readingFirst noDollarFirst restricted journal
  obtain ⟨secondAtLine, secondEntries⟩ :=
    parse_eq_entries readingSecond noDollarSecond restricted journal
  rw [firstEntries] at joined
  have twice :=
    parse_blockText_twice Closures.find?_standard_ne_array readingFirst readingSecond firstAtLine
      secondAtLine noDollarFirst noDollarSecond key ordinary restricted journal
  obtain ⟨atBrace, reaches, onto⟩ :=
    exists_reaches_joined Closures.find?_standard_ne_array Closures.find?_standard_ne_body
      readingFirst readingSecond joined firstAtLine noDollarFirst noDollarSecond key ordinary
      restricted journal begins
  have joinedOnce :
      once =
        [(key.word, .mapping (Mapping.merge lastFirst.frame.entries lastSecond.frame.entries))] :=
    mapping_run_of_readsOnto readingSecond secondAtLine key reaches (fun _ member => nomatch member)
      rfl onto
  have ofFirst :
      mapping (blockText key.word first) = [(key.word, .mapping lastFirst.frame.entries)] :=
    parse_blockText readingFirst firstAtLine noDollarFirst key ordinary restricted journal
  have ofSecond :
      mapping (blockText key.word second) = [(key.word, .mapping lastSecond.frame.entries)] :=
    parse_blockText readingSecond secondAtLine noDollarSecond key ordinary restricted journal
  have bothEntries :
      Mapping.merge (mapping first) (mapping second) =
        Mapping.merge lastFirst.frame.entries lastSecond.frame.entries :=
    congrArg₂ Mapping.merge firstEntries secondEntries
  refine ⟨twice.trans joinedOnce.symm, bothEntries ▸ joinedOnce, ?_⟩
  intro path value noMapping isThere
  rw [ofFirst] at isThere
  rw [joinedOnce, ofSecond, ← Mapping.merge_mappings]
  have wellKeyed : Mapping.WellKeyed lastSecond.frame.entries := onto.sound.entries
  have lastJoined := joined lastSecond readingSecond.reaches readingSecond.outermost.1
  have keeps :
      Mapping.keepsMappings [(key.word, .mapping lastFirst.frame.entries)]
        [(key.word, .mapping lastSecond.frame.entries)] = true := by
    rw [Mapping.keepsMappings_mappings]
    exact Mapping.joins.keepsMappings lastJoined
  exact
    Mapping.valueAt?_merge (Mapping.wellKeyed_mapping key.word wellKeyed) keeps noMapping isThere

/-- Blocks with a nested block of one name, where the second body begins with a brace. -/
theorem parse_repeated_nestedBlock :
    let key : Plain.Key := ⟨"android".toList, by decide, by decide, by decide⟩
    let first := "x \x7b a 1 \x7d\ny 2".toList
    let second := "\x7b w 5 \x7d\nx \x7b b 3 \x7d\nx \x7b a 4 \x7d".toList
    let mapping (text : Text) := (parse Closures.standard false {} text).1
    let once := mapping (blockText key.word (first ++ '\n' :: second))
    Closures.standard.find? key.word = none ∧
      '$' ∉ first ∧
      '$' ∉ second ∧
      IsBody Closures.standard first ∧
      IsBodyOnto Closures.standard (mapping first) second ∧
      BeginsAt Closures.standard
        (State.start
          (Session.ofText (blockText key.word (first ++ '\n' :: second)) false {}) {} true)
        (closedBody second ++ ['\n']) ∧
      mapping (blockText key.word first ++ blockText key.word second) = once ∧
        once = [(key.word, .mapping (Mapping.merge (mapping first) (mapping second)))] ∧
        ∀ path value,
          (∀ entries, value ≠ .mapping entries) →
            Mapping.valueAt? (.mapping (mapping (blockText key.word first))) path = some value →
              Mapping.valueAt? (.mapping once) path =
                some
                  ((Mapping.valueAt? (.mapping (mapping (blockText key.word second))) path).getD
                    value) := by
  intro key first second mapping once
  let secondStart := State.start (Session.ofText (closedBody second) false {}) {} false
  let script :=
    State.start (Session.ofText (blockText key.word (first ++ '\n' :: second)) false {}) {} true
  have ordinary : Closures.standard.find? key.word = none := by decide
  have noDollarFirst : '$' ∉ first := by decide
  have noDollarSecond : '$' ∉ second := by decide
  have firstEnds : endsAsBody Closures.standard 14 first = true := by decide +kernel
  have secondEnds : endsAsBody Closures.standard 28 second = true := by decide +kernel
  have firstMapping :
      mappingAfter? Closures.standard 13 (State.start (Session.ofText first false {}) {} true) =
        some
          [("x".toList, .mapping [("a".toList, .text "1".toList)]),
            ("y".toList, .text "2".toList)] := by
    decide +kernel
  have firstEntries := mapping_run_of_mappingAfter? firstMapping
  let joinedHere (state : State) : Bool :=
    !state.outer.isEmpty ||
      Mapping.joins
        [("x".toList, .mapping [("a".toList, .text "1".toList)]), ("y".toList, .text "2".toList)]
        state.frame.entries
  have joined : alwaysWithin joinedHere Closures.standard 40 secondStart = true := by
    decide +kernel
  have isBody : IsBody Closures.standard first := ⟨false, {}, _, readsBody_of_endsAsBody firstEnds⟩
  have isBodyOnto : IsBodyOnto Closures.standard (mapping first) second := by
    refine ⟨false, {}, _, readsBody_of_endsAsBody secondEnds, fun state reached alone => ?_⟩
    have holds := holds_of_alwaysWithin joined reached
    have sameEntries : mapping first = _ := firstEntries
    simpa [joinedHere, sameEntries, alone] using holds
  let unescapedHere (state : State) : Bool :=
    state.session.rest != closedBody second ++ ['\n'] || state.frame.previous != some '\\'
  have unescaped : alwaysWithin unescapedHere Closures.standard 60 script = true := by
    decide +kernel
  have begins : BeginsAt Closures.standard script (closedBody second ++ ['\n']) := by
    refine ⟨fun _ => ⟨_, reaches_readOn Closures.standard 24 script, by decide +kernel⟩, ?_⟩
    intro later reached place
    have holds := holds_of_alwaysWithin unescaped reached
    simpa [unescapedHere, place] using holds
  exact
    ⟨ordinary, noDollarFirst, noDollarSecond, isBody, isBodyOnto, begins,
      parse_repeated key first second ordinary noDollarFirst noDollarSecond false {} isBody
        isBodyOnto begins⟩

/-- Whether two bodies without dollar signs denote in two blocks of a key something else than in
one. -/
def DenotesApart (key : Plain.Key) (first second : Text) : Prop :=
  '$' ∉ first ∧
    '$' ∉ second ∧
    IsBody Closures.standard first ∧
    IsBody Closures.standard second ∧
    (parse Closures.standard false {} (blockText key.word first ++ blockText key.word second)).1 ≠
      (parse Closures.standard false {} (blockText key.word (first ++ '\n' :: second))).1

/-- Two bodies are told apart by what their blocks denote, each computed by so many constructs. -/
theorem denotesApart_of_mappings
    {key : Plain.Key} {first second : Text}
    (count : Nat)
    (twice once : Mapping)
    (noDollarFirst : '$' ∉ first)
    (noDollarSecond : '$' ∉ second)
    (firstEnds : ∃ firstCount, endsAsBody Closures.standard firstCount first = true)
    (secondEnds : ∃ secondCount, endsAsBody Closures.standard secondCount second = true)
    (isTwice :
      mappingAfter? Closures.standard count
          (State.start
            (Session.ofText (blockText key.word first ++ blockText key.word second) false {}) {}
            true) =
        some twice)
    (isOnce :
      mappingAfter? Closures.standard count
          (State.start
            (Session.ofText (blockText key.word (first ++ '\n' :: second)) false {}) {} true) =
        some once)
    (differ : twice ≠ once) :
    DenotesApart key first second := by
  obtain ⟨firstCount, firstEnds⟩ := firstEnds
  obtain ⟨secondCount, secondEnds⟩ := secondEnds
  have ranTwice := mapping_run_of_mappingAfter? isTwice
  have ranOnce := mapping_run_of_mappingAfter? isOnce
  exact
    ⟨noDollarFirst, noDollarSecond, ⟨false, {}, _, readsBody_of_endsAsBody firstEnds⟩,
      ⟨false, {}, _, readsBody_of_endsAsBody secondEnds⟩,
      fun same => differ (ranTwice.symm.trans (same.trans ranOnce))⟩

/-- A value that comes again is collected in one block, and replaces the earlier one in a second
block; an alternative goes with the conditional in one block, and is a statement of its own in a
second one; and a backslash before a comment escapes the quote after it in one block alone. -/
theorem parse_repeated_apart :
    let key : Plain.Key := ⟨"a".toList, by decide, by decide, by decide⟩
    Closures.standard.find? key.word = none ∧
      DenotesApart key "x 1".toList "x 2".toList ∧
      DenotesApart key "if (c) y".toList "else z".toList ∧
      DenotesApart key "w 1 \\// c".toList "'p' 2".toList := by
  intro key
  have replaced : DenotesApart key "x 1".toList "x 2".toList :=
    denotesApart_of_mappings 40 [(key.word, .mapping [("x".toList, .text "2".toList)])]
      [(key.word, .mapping [("x".toList, .list [.text "1".toList, .text "2".toList])])]
      (by decide) (by decide) ⟨4, by decide +kernel⟩ ⟨4, by decide +kernel⟩
      (by decide +kernel) (by decide +kernel) (by decide)
  have alternative : DenotesApart key "if (c) y".toList "else z".toList :=
    denotesApart_of_mappings 40 [(key.word, .mapping [("else".toList, .text "z".toList)])]
      [(key.word, .mapping [])]
      (by decide) (by decide) ⟨4, by decide +kernel⟩ ⟨7, by decide +kernel⟩
      (by decide +kernel) (by decide +kernel) (by decide)
  have escaped : DenotesApart key "w 1 \\// c".toList "'p' 2".toList :=
    denotesApart_of_mappings 40
      [(key.word, .mapping [("w".toList, .text "1 \\".toList), ("'p'".toList, .text "2".toList)])]
      [(key.word, .mapping [("w".toList, .text "1 \\".toList)])]
      (by decide) (by decide) ⟨9, by decide +kernel⟩ ⟨6, by decide +kernel⟩
      (by decide +kernel) (by decide +kernel) (by decide)
  exact ⟨by decide, replaced, alternative, escaped⟩

end Script

end GradleScript
