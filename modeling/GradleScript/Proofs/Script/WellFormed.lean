import GradleScript.Proofs.Script.Ending
import GradleScript.Proofs.Simulation.Onto
import GradleScript.Proofs.Value.WellFormed

namespace GradleScript

/-!
# What a script denotes is well-formed

The entries of every body are well-formed while it is read.  In the body of a closure, and in the
blocks in it, values without content are kept, so there the entries are those of the data of a
repository.  When such a body is finished, it is the closure that is stored, and not its entries.
-/

/-! ## What is stored -/

/-- Whether what a statement records may stand in the entries of its body. -/
def Pending.WellFormed (mode : Mode) (pending : Option (Text × Value)) : Prop :=
  ∀ key value, pending = some (key, value) → Value.WellFormed mode.keepEmpty (.underKey key) value

/-- Entries stay well-formed when what a statement records is added to them. -/
theorem Mapping.WellFormed.addPending
    {mode : Mode} {entries : Mapping} {pending : Option (Text × Value)}
    (wellFormed : entries.WellFormed mode.keepEmpty)
    (ofPending : Pending.WellFormed mode pending) :
    (entries.addPending pending).WellFormed mode.keepEmpty := by
  cases pending with
  | none =>
      exact wellFormed
  | some entry =>
      obtain ⟨key, value⟩ := entry
      exact wellFormed.add (ofPending key value rfl)

/-- The text of a value may stand in the entries of its body. -/
theorem Mode.wellFormed_entryOf
    (mode : Mode) (key raw : Text) :
    Pending.WellFormed mode (mode.entryOf key raw) := by
  intro recordedKey value recorded
  unfold Mode.entryOf at recorded
  split at recorded
  · cases recorded
  · next isKept =>
      obtain ⟨rfl, rfl⟩ := Prod.mk.inj (Option.some.inj recorded)
      apply Value.wellFormed_ofScalar
      intro isEmpty
      have noText : strip raw = [] := by
        by_contra notEmpty
        exact trimQuotes_ne_nil notEmpty isEmpty
      have keepsEmpty : ¬ key = [] ∧ mode.keepEmpty = true := by simpa [noText] using isKept
      exact keepsEmpty.2

namespace Frame

variable (frame : Frame)

/-- What the end of a statement records may stand in the entries of its body. -/
theorem wellFormed_pending : Pending.WellFormed frame.mode frame.pending := by
  unfold pending
  split <;> exact frame.mode.wellFormed_entryOf _ _

/-- What is kept of a call may stand in the entries of its body. -/
theorem wellFormed_keptCall
    (text : Text) :
    Pending.WellFormed frame.mode (frame.keptCall text) := by
  unfold keptCall
  split
  · exact nofun
  · exact frame.mode.wellFormed_entryOf _ _

/-- What a construct records may stand in the entries of its body. -/
theorem exists_act_eq_record
    (closures : Closures) (text : Text) {turn : Turn}
    (noStart : turn ≠ .blockStart)
    (noEnd : turn ≠ .blockEnd) :
    ∃ pending,
      frame.act closures text turn = .record pending ∧
        Pending.WellFormed frame.mode pending := by
  cases turn with
  | blockStart =>
      exact (noStart rfl).elim
  | blockEnd =>
      exact (noEnd rfl).elim
  | lineEnd | commentStart kind =>
      exact ⟨_, rfl, frame.wellFormed_pending⟩
  | call =>
      exact ⟨_, rfl, frame.wellFormed_keptCall text⟩
  | array =>
      refine ⟨_, rfl, ?_⟩
      rintro key value recorded
      obtain ⟨rfl, rfl⟩ := Prod.mk.inj (Option.some.inj recorded)
      exact Value.wellFormed_readArray _ _ text
  | _ =>
      exact ⟨none, rfl, nofun⟩

end Frame

/-- The items of a closure may stand in the list that they come to. -/
theorem Mapping.WellFormed.putClosure
    {inData : Bool} {entries : Mapping} {key : Text} {items : List Value}
    (wellFormed : entries.WellFormed inData)
    (keyed : key ≠ [])
    (ofItems : ∀ item ∈ items, Value.WellFormed inData .inList item) :
    (entries.putClosure key (.list items)).WellFormed inData := by
  rw [Mapping.putClosure_list]
  apply wellFormed.put keyed
  cases isThere : entries.get? key with
  | none =>
      exact .list ofItems
  | some present =>
      have ofPresent := wellFormed.ofValue isThere
      cases present with
      | list earlier =>
          cases ofPresent with
          | list ofEarlier =>
              refine .list ?_
              intro item member
              rcases List.mem_append.mp member with isEarlier | isItem
              · exact ofEarlier item isEarlier
              · exact ofItems item isItem
      | _ =>
          exact .list ofItems

/-- Whether what is opened in a body of a mode, and read in another one, may be stored in it. -/
def Opening.Fits (opening : Opening) (outer inner : Mode) : Prop :=
  match opening with
  | .block _ _ => inner.keepEmpty = outer.keepEmpty
  | .closure key repositories => key ≠ [] ∧ repositories = true

/-- A finished body leaves the entries around it well-formed. -/
theorem Mapping.WellFormed.entriesAfter
    {suspended : Suspended} {inner : Mode} {nested : Mapping}
    (wellFormed : suspended.frame.entries.WellFormed suspended.frame.mode.keepEmpty)
    (fits : suspended.opening.Fits suspended.frame.mode inner)
    (ofNested : nested.WellFormed inner.keepEmpty) :
    (suspended.entriesAfter nested).WellFormed suspended.frame.mode.keepEmpty := by
  unfold Suspended.entriesAfter
  cases opened : suspended.opening with
  | closure key repositories =>
      rw [opened] at fits
      obtain ⟨keyed, rfl⟩ := fits
      exact wellFormed.putClosure keyed (ofNested.ofRepositories _)
  | block key inDependencies =>
      rw [opened] at fits
      have sameMode : inner.keepEmpty = suspended.frame.mode.keepEmpty := fits
      rw [sameMode] at ofNested
      dsimp only
      split
      · exact wellFormed.merge ofNested
      · next isKeyed =>
          have keyed : key ≠ [] := by simpa using isKeyed
          exact wellFormed.put_mergeValue keyed ofNested

/-! ## The entries of all bodies -/

/-- Whether the entries of the bodies around one that is read in a mode are well-formed.  The
outermost body keeps no values without content. -/
def Suspended.WellFormedAround : Mode → List Suspended → Prop
  | inner, [] => inner.keepEmpty = false
  | inner, suspended :: outer =>
      suspended.opening.Fits suspended.frame.mode inner ∧
        suspended.frame.entries.WellFormed suspended.frame.mode.keepEmpty ∧
          WellFormedAround suspended.frame.mode outer

/-- Whether the entries around are well-formed does not depend on what lists are shared. -/
theorem Suspended.wellFormedAround_unshared
    (inner : Mode) (outer : List Suspended) :
    WellFormedAround inner (outer.map unshared) ↔ WellFormedAround inner outer := by
  induction outer generalizing inner with
  | nil =>
      rfl
  | cons suspended outer inductionHypothesis =>
      rw [List.map_cons, WellFormedAround, WellFormedAround]
      exact and_congr Iff.rfl (and_congr Iff.rfl (inductionHypothesis suspended.frame.mode))

namespace State

/-- Whether the entries of all bodies being read are well-formed. -/
structure WellFormed (state : State) : Prop where
  entries : state.frame.entries.WellFormed state.frame.mode.keepEmpty
  around : Suspended.WellFormedAround state.frame.mode state.outer

namespace WellFormed

variable {state next : State}

/-- What is recorded in a body leaves the entries of all bodies well-formed. -/
theorem of_surroundings
    (wellFormed : state.WellFormed)
    (same : next.surroundings = state.surroundings)
    (ofEntries : next.frame.entries.WellFormed state.frame.mode.keepEmpty) :
    next.WellFormed := by
  have sameMode : next.frame.mode = state.frame.mode :=
    congrArg (fun body => body.frame.mode) same
  have sameOuter : next.outer.map Suspended.unshared = state.outer.map Suspended.unshared :=
    congrArg (fun body => body.outer) same
  constructor
  · rw [sameMode]
    exact ofEntries
  · rw [sameMode, ← Suspended.wellFormedAround_unshared, sameOuter,
      Suspended.wellFormedAround_unshared]
    exact wellFormed.around

/-- The end of a statement leaves well-formed entries. -/
theorem flush
    (wellFormed : state.WellFormed) :
    state.flush.WellFormed := by
  apply wellFormed.of_surroundings (surroundings_flush state)
  rw [entries_flush]
  exact wellFormed.entries.addPending state.frame.wellFormed_pending

/-- A body is entered with well-formed entries around it. -/
theorem suspend
    {opening : Opening} {mode : Mode}
    (wellFormed : state.WellFormed)
    (fits : opening.Fits state.frame.mode mode) :
    (state.suspend opening mode).WellFormed :=
  ⟨Mapping.wellFormed_nil _, fits, wellFormed.entries, wellFormed.around⟩

/-- A finished body leaves the entries of the bodies around well-formed. -/
theorem resume
    {suspended : Suspended} {outer : List Suspended}
    (wellFormed : state.WellFormed)
    (around : state.outer = suspended :: outer) :
    (state.resume suspended outer).WellFormed := by
  have sameMode : (state.resume suspended outer).frame.mode = suspended.frame.mode :=
    congrArg (fun body => body.frame.mode) (lexical_resume state suspended outer)
  have sameOuter :
      (state.resume suspended outer).outer.map Suspended.unshared =
        outer.map Suspended.unshared :=
    outer_surroundings_resume state suspended outer
  have ofAround := wellFormed.around
  rw [around, Suspended.WellFormedAround] at ofAround
  obtain ⟨fits, ofSuspended, ofOuter⟩ := ofAround
  constructor
  · rw [sameMode, entries_resume]
    exact ofSuspended.entriesAfter fits wellFormed.entries
  · rw [sameMode, ← Suspended.wellFormedAround_unshared, sameOuter,
      Suspended.wellFormedAround_unshared]
    exact ofOuter

/-- With the standard closures, a block is entered in the mode of the body that it stands in, unless
it lists repositories. -/
theorem openBlock
    (wellFormed : state.WellFormed)
    (rest : Text) :
    (State.openBlock .standard state rest).WellFormed := by
  let passed := ((state.withRest rest).withStatement {}).withLineStart true
  have waiting : (passed.withPrevious none).WellFormed := ⟨wellFormed.entries, wellFormed.around⟩
  unfold State.openBlock
  dsimp only
  rw [Closures.find?_standard]
  generalize
    (if state.frame.statement.key.isEmpty then strip state.frame.statement.part
      else state.frame.statement.key) = key
  by_cases isRepositories : key = Closures.repositoriesKey
  · have keyed : key ≠ [] := by
      rw [isRepositories]
      decide
    rw [if_pos isRepositories]
    exact waiting.suspend ⟨keyed, rfl⟩
  · rw [if_neg isRepositories]
    have fits :
        (Opening.block key state.session.interpolation.inDependencies).Fits state.frame.mode
          state.frame.mode :=
      rfl
    have entered := waiting.suspend fits
    exact ⟨entered.entries, entered.around⟩

/-- A closing brace stores well-formed entries in the body around. -/
theorem closeBlock
    {rest : Text}
    (wellFormed : state.WellFormed)
    (closed : state.closeBlock rest = .running next) :
    next.WellFormed := by
  have passed : (state.withRest rest).WellFormed := ⟨wellFormed.entries, wellFormed.around⟩
  have ended := passed.flush
  unfold State.closeBlock at closed
  dsimp only at closed
  split at closed
  · next suspended outer around =>
      cases closed
      exact ended.resume around
  · split at closed
    · cases closed
      exact ⟨ended.entries, ended.around⟩
    · cases closed

/-- A character that ends a name stores nothing. -/
theorem settle
    (wellFormed : state.WellFormed)
    (ch : Char) :
    (state.settle ch).WellFormed := by
  apply wellFormed.of_surroundings (surroundings_settle state ch)
  have sameEntries : (state.settle ch).frame.entries = state.frame.entries := by
    unfold State.settle
    repeat' split
    all_goals rfl
  rw [sameEntries]
  exact wellFormed.entries

/-- Every construct leaves the entries of all bodies well-formed. -/
theorem steps
    (wellFormed : state.WellFormed)
    (steps : Steps .standard state next) :
    next.WellFormed := by
  obtain ⟨ch, rest, _, advanced⟩ := steps_iff.mp steps
  have settled := wellFormed.settle ch
  have inLine : ((state.settle ch).withLineStart false).WellFormed :=
    ⟨settled.entries, settled.around⟩
  unfold advance at advanced
  dsimp only at advanced
  by_cases isStart : (state.settle ch).turn ch rest = .blockStart
  · rw [isStart] at advanced
    cases advanced
    exact inLine.openBlock rest
  · by_cases isEnd : (state.settle ch).turn ch rest = .blockEnd
    · rw [isEnd] at advanced
      exact inLine.closeBlock advanced
    · apply settled.of_surroundings (surroundings_take isStart isEnd advanced)
      obtain ⟨pending, isRecord, ofPending⟩ :=
        (state.settle ch).frame.exists_act_eq_record .standard (ch :: rest) isStart isEnd
      have recorded := layers_take_within isStart isEnd advanced
      rw [isRecord] at recorded
      have entries :
          next.frame.entries = (state.settle ch).frame.entries.addPending pending :=
        congrArg Layers.entries recorded
      rw [entries]
      exact settled.entries.addPending ofPending

/-- All bodies that are being read have well-formed entries, at every place of a run. -/
theorem reaches
    {later : State}
    (wellFormed : state.WellFormed)
    (reaches : Reaches .standard state later) :
    later.WellFormed := by
  induction reaches with
  | refl =>
      exact wellFormed
  | tail _ steps inductionHypothesis =>
      exact inductionHypothesis.steps steps

/-- The end of the text, where it ends a name, stores nothing. -/
theorem settleEnd
    (wellFormed : state.WellFormed) :
    state.settleEnd.WellFormed := by
  apply wellFormed.of_surroundings (surroundings_settleEnd state)
  have sameEntries : state.settleEnd.frame.entries = state.frame.entries := by
    unfold State.settleEnd
    split <;> rfl
  rw [sameEntries]
  exact wellFormed.entries

/-- Where the text ends, what the outermost body denotes is well-formed. -/
theorem unwind
    (wellFormed : state.WellFormed) :
    state.unwind.2.WellFormed false := by
  induction depth : state.outer.length generalizing state with
  | zero =>
      have alone : state.outer = [] := List.length_eq_zero_iff.mp depth
      have outermost := wellFormed.around
      rw [alone] at outermost
      have noneKept : state.frame.mode.keepEmpty = false := outermost
      rw [unwind_of_alone alone, ← noneKept]
      exact wellFormed.entries
  | succ less inductionHypothesis =>
      obtain ⟨suspended, outer, around⟩ := List.exists_cons_of_length_eq_add_one depth
      have shallower : (state.resume suspended outer).outer.length = less := by
        rw [length_outer_resume]
        simpa [around] using depth
      rw [unwind_of_around around]
      exact inductionHypothesis (wellFormed.resume around) shallower

end WellFormed

/-- A text is begun with entries that are well-formed because there are none. -/
theorem wellFormed_start
    (session : Session) (wholeScript : Bool) :
    (State.start session {} wholeScript).WellFormed :=
  ⟨Mapping.wellFormed_nil _, rfl⟩

/-- What a whole script denotes is well-formed. -/
theorem wellFormed_run
    (session : Session) :
    ((State.start session {} true).run .standard).2.WellFormed false := by
  have whole : (State.start session {} true).wholeScript = true := rfl
  obtain ⟨last, reaches, atEnd⟩ := exists_reaches_end .standard whole
  rw [run_eq_of_reaches_end reaches atEnd]
  exact ((wellFormed_start session true).reaches reaches).settleEnd.flush.unwind

end State

/-! ## What a script denotes -/

/-- At every depth, what stands in the mapping that a script denotes may stand there, whatever the
text, the setting and the variables are.  So the mapping has a JSON form, unless the indentation is
refused. -/
theorem parse_fits
    (restricted : Bool) (journal : Journal) (text : Text) :
    let denoted := Value.mapping (Script.parse .standard restricted journal text).1
    (∀ inData slot value, denoted.Stands inData slot value → value.FitsAt inData slot) ∧
      ¬ denoted.Contains denoted ∧ ∀ indent, denoted.toJson indent ≠ .error .unordered := by
  intro denoted
  have wellFormed : Value.WellFormed false .inList denoted :=
    (State.wellFormed_run (.ofText text restricted journal)).asValue .inList
  refine ⟨?_, denoted.not_contains_self, wellFormed.toJson_ne_unordered⟩
  intro inData slot value stands
  obtain ⟨keyed, ofValue⟩ := wellFormed.stands stands
  exact ofValue.fitsAt keyed

/-- The text of a repository whose directive is a pair of parentheses. -/
def unnamedDirective : Text :=
  "repositories \x7b\n() \x7b\nurl 'x'\n\x7d\n\x7d".toList

/-- A repository can have an empty kind, which is no part of its data. -/
theorem parse_unnamedDirective :
    (Value.mapping (Script.parse .standard true {} unnamedDirective).1).Stands false .inList
      (.repository [] [("url".toList, .text "x".toList)]) := by
  let entries : Mapping :=
    [(Closures.repositoriesKey, .list [.repository [] [("url".toList, .text "x".toList)]])]
  have parsed : (Script.parse .standard true {} unnamedDirective).1 = entries := by
    have isMapping :
        State.mappingAfter? .standard 29
          (State.start (.ofText unnamedDirective true {}) {} true) = some entries := by
      decide +kernel
    exact State.mapping_run_of_mappingAfter? isMapping
  rw [parsed]
  exact .deeper (.directly (.entry List.mem_cons_self)) (.item List.mem_cons_self)

end GradleScript
