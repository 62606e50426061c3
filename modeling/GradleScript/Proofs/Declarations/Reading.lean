import GradleScript.Proofs.Block.Unshared
import GradleScript.Proofs.Declarations.Knowledge
import GradleScript.Proofs.Plain.Reading

namespace GradleScript.Declarations

/-!
# Reading entries with references

The quoted text of an entry is read piece by piece.  Each reference is resolved in the journal that
the ones before it left, so the text and the journal after a list of pieces are computed together.
-/

open Plain State

/-! ## Pieces -/

/-- A piece is read in the literal of an entry, if the text after it ends its name. -/
theorem Piece.joins
    (closures : Closures) {state : State} {rest : Text}
    (piece : Piece)
    (calm : state.Calm)
    (allowed : state.session.interpolation.allowed = true)
    (terminated : ∀ name, piece = .reference .bare name → rest.head?.any endsBareName = true)
    (statement : Statement) {previous : Option Char}
    (notEscaped : previous ≠ some '\\') :
    ∃ (base : State) (last : Option Char),
      base.Calm ∧
      base.stored = state.stored.withJournal (piece.splice state.session.journal).2 ∧
      last ≠ some '\\' ∧
      Joins closures (state.inLiteral '"' (piece.written ++ rest) statement previous)
        (base.inLiteral '"' rest (statement.append (piece.splice state.session.journal).1)
          last) := by
  cases piece with
  | literal text oneLine noQuote noDollar noBackslash =>
      have dollars : ∀ ch ∈ text, state.DollarIsPlain ch := by
        rintro ch member rfl
        exact (noDollar member).elim
      have lastNotEscaping : text.getLast?.or previous ≠ some '\\' := by
        cases last : text.getLast? with
        | none =>
            exact notEscaped
        | some ch =>
            rintro isBackslash
            rw [Option.some_or] at isBackslash
            rw [isBackslash] at last
            exact noBackslash (List.mem_of_getLast? last)
      have read :=
        reaches_literalBody closures calm text rest oneLine noQuote dollars statement
          previous
      exact ⟨state, _, calm, rfl, lastNotEscaping, Reaches.joins read⟩
  | reference form name =>
      cases form with
      | braced =>
          have read :=
            calm.reaches_bracedName closures '"' allowed name.chars rfl rest statement notEscaped
          have shape :
              (Piece.reference .braced name).written ++ rest =
                '$' :: '{' :: name.word ++ '}' :: rest := by
            simp [Piece.written, writtenName]
          rw [shape]
          exact ⟨_, some '}', calm.afterName _, rfl, by decide, Reaches.joins read⟩
      | bare =>
          have ends := terminated name rfl
          cases rest with
          | nil =>
              contradiction
          | cons terminator rest =>
              obtain ⟨last, lastNotEscaping, read⟩ :=
                calm.joins_bareName closures '"' allowed name.chars name.notEmpty rfl ends rest
                  statement notEscaped
              exact ⟨_, last, calm.afterName _, rfl, lastNotEscaping, read⟩

/-- Pieces are read in the literal of an entry, up to its closing quote. -/
theorem joins_pieces
    (closures : Closures) {state : State}
    (pieces : List Piece)
    (terminated : areTerminated pieces = true)
    (calm : state.Calm)
    (allowed : state.session.interpolation.allowed = true)
    (rest : Text) (statement : Statement) {previous : Option Char}
    (notEscaped : previous ≠ some '\\') :
    ∃ (base : State) (last : Option Char),
      base.Calm ∧
      base.stored = state.stored.withJournal (splicePieces state.session.journal pieces).2 ∧
      last ≠ some '\\' ∧
      Joins closures
        (state.inLiteral '"' (writtenPieces pieces ++ '"' :: rest) statement previous)
        (base.inLiteral '"' ('"' :: rest)
          (statement.append (splicePieces state.session.journal pieces).1) last) := by
  induction pieces generalizing state statement previous with
  | nil =>
      exact ⟨state, previous, calm, rfl, notEscaped, Reaches.joins .refl⟩
  | cons piece pieces inductionHypothesis =>
      have pieceTerminated :
          ∀ name, piece = .reference .bare name →
            (writtenPieces pieces ++ '"' :: rest).head?.any endsBareName = true := by
        rintro name rfl
        rw [areTerminated, Bool.and_eq_true] at terminated
        have shape :
            (writtenPieces pieces ++ '"' :: rest).head? =
              (writtenPieces pieces ++ ['"']).head? := by
          cases writtenPieces pieces <;> rfl
        rw [shape]
        exact terminated.1
      have laterTerminated : areTerminated pieces = true := by
        unfold areTerminated at terminated
        split at terminated
        · contradiction
        · next shape =>
            cases shape
            exact (Bool.and_eq_true _ _ ▸ terminated).2
        · next shape =>
            cases shape
            exact terminated
      obtain ⟨middle, middleLast, middleCalm, middleStored, middleNotEscaping, first⟩ :=
        piece.joins closures calm allowed pieceTerminated statement notEscaped
      have middleJournal :
          middle.session.journal = (piece.splice state.session.journal).2 :=
        congrArg (fun body => body.session.journal) middleStored
      have middleAllowed : middle.session.interpolation.allowed = true :=
        (congrArg (fun body => body.session.interpolation.allowed) middleStored).trans allowed
      obtain ⟨base, last, baseCalm, baseStored, lastNotEscaping, later⟩ :=
        inductionHypothesis laterTerminated middleCalm middleAllowed
          (statement.append (piece.splice state.session.journal).1) middleNotEscaping
      rw [middleJournal, middleStored] at baseStored
      rw [middleJournal, Statement.append_append] at later
      refine ⟨base, last, baseCalm, baseStored, lastNotEscaping, ?_⟩
      have shape :
          writtenPieces (piece :: pieces) ++ '"' :: rest =
            piece.written ++ (writtenPieces pieces ++ '"' :: rest) := by
        simp [writtenPieces]
      rw [shape]
      exact first.trans later

/-! ## Entries -/

/-- What an entry does to a state. -/
def Entry.store (state : State) (entry : Entry) : State :=
  (state.withJournal (splicePieces state.session.journal entry.pieces).2).record entry.conf.word
    (.ofScalar (splicePieces state.session.journal entry.pieces).1)

/-- An entry is read as the record of its spliced text, unless that is empty or holds a quote. -/
theorem Entry.readsLine
    (closures : Closures) {state : State} {rest : Text}
    (entry : Entry)
    (atLine : state.AtLine)
    (text : state.session.rest = entry.text ++ rest)
    (allowed : state.stored.session.interpolation.allowed = true)
    (notEmpty : (splicePieces state.stored.session.journal entry.pieces).1 ≠ [])
    (unquoted : '"' ∉ (splicePieces state.stored.session.journal entry.pieces).1) :
    ReadsLine closures state rest (entry.store state.stored) := by
  simp only [Entry.text, List.append_assoc, List.cons_append, List.nil_append] at text
  refine entry.indent.readsLine atLine text fun later laterAtLine laterText laterStored => ?_
  rw [← laterStored] at allowed notEmpty unquoted ⊢
  have isMark : isQuote '"' = true := by decide
  have keyOthers := fun ch member => (entry.conf.key.solid ch member).other
  have keyText :
      later.session.rest =
        entry.conf.word ++ entry.gap.text ++
          '"' :: (writtenPieces entry.pieces ++ '"' :: rest) := by
    rw [laterText, List.append_assoc]
  obtain ⟨previous, notEscaped, afterKey⟩ :=
    laterAtLine.reaches_key closures keyText entry.conf.notEmpty keyOthers
      entry.conf.notKeyword entry.gapNotEmpty entry.gap.delimiters
  have opens :=
    steps_literalStart closures laterAtLine.calm isMark
      (writtenPieces entry.pieces ++ '"' :: rest) ⟨entry.conf.word, [], false⟩ notEscaped
  obtain ⟨base, last, baseCalm, baseStored, lastNotEscaping, inside⟩ :=
    joins_pieces closures entry.pieces entry.terminated laterAtLine.calm allowed rest
      ((⟨entry.conf.word, [], false⟩ : Statement).append ['"']) (by decide : some '"' ≠ some '\\')
  have closes :=
    steps_literalEnd closures baseCalm isMark rest
      (((⟨entry.conf.word, [], false⟩ : Statement).append ['"']).append
        (splicePieces later.session.journal entry.pieces).1) lastNotEscaping
  rw [Statement.append_append, Statement.append_append] at closes
  rw [Statement.append_append] at inside
  have recorded :=
    (baseCalm.withQuote ⟨false, some '"'⟩ rfl).readsLine_of_value closures entry.conf.notEmpty
      ('"' :: (splicePieces later.session.journal entry.pieces).1 ++ ['"'])
      (by rw [strip_literal isMark]; exact List.cons_ne_nil _ _) rest (some '"')
  have trimmed :
      trimQuotes ('"' :: (splicePieces later.session.journal entry.pieces).1 ++ ['"']) =
        (splicePieces later.session.journal entry.pieces).1 :=
    trimQuotes_literal isMark notEmpty unquoted
  rw [strip_literal isMark, trimmed] at recorded
  have storedShape :
      (base.withQuote ⟨false, some '"'⟩).stored =
        later.stored.withJournal (splicePieces later.session.journal entry.pieces).2 :=
    baseStored
  rw [storedShape] at recorded
  exact recorded.after ((afterKey.tail opens).trans (inside.tail closes))

/-! ## The lines of the dependencies -/

/-- What a line of the dependencies does to a state. -/
def DependencyLine.store (state : State) : DependencyLine → State
  | .filler _ =>
      state
  | .entry item =>
      item.store state

/-- What lines of the dependencies do to a state, one after another. -/
def storeDependencyLines (state : State) (lines : List DependencyLine) : State :=
  lines.foldl DependencyLine.store state

/-- What holds of a state inside the dependencies. -/
structure Inside (apart : List Text) (known : List (Text × Text)) (state : State) : Prop where
  unshared : state.Unshared
  inDependencies : state.session.interpolation.inDependencies = true
  knows : Knows apart state.session.journal.table known
  sound : ∀ declaration ∈ known, Sound declaration

/-- Whether lines write and refer to different names: they write some that are apart, and refer to
others. -/
structure RefersElsewhere (apart : List Text) (lines : List DependencyLine) : Prop where
  confs : ∀ name ∈ lines.flatMap DependencyLine.confs, name ∈ apart
  referenced : ∀ name ∈ lines.flatMap DependencyLine.referenced, name ∉ apart

/-- The first of several lines refers elsewhere as all of them do. -/
theorem RefersElsewhere.head
    {apart : List Text} {line : DependencyLine} {lines : List DependencyLine}
    (elsewhere : RefersElsewhere apart (line :: lines)) :
    RefersElsewhere apart [line] := by
  constructor
  · intro name member
    exact elsewhere.confs name (by simp_all)
  · intro name member
    exact elsewhere.referenced name (by simp_all)

/-- The lines after the first refer elsewhere as all of them do. -/
theorem RefersElsewhere.tail
    {apart : List Text} {line : DependencyLine} {lines : List DependencyLine}
    (elsewhere : RefersElsewhere apart (line :: lines)) :
    RefersElsewhere apart lines := by
  constructor
  · intro name member
    exact elsewhere.confs name (List.mem_append_right _ member)
  · intro name member
    exact elsewhere.referenced name (List.mem_append_right _ member)

namespace Inside

variable {apart : List Text} {known : List (Text × Text)} {state : State}

/-- Inside the dependencies, entries and variables may be written as long as the variables know the
declarations. -/
theorem changed
    (inside : Inside apart known state)
    (entries : Mapping) {journal : Journal}
    (knows : Knows apart journal.table known) :
    Inside apart known ((state.withEntries entries).withJournal journal) :=
  ⟨(inside.unshared.withEntries entries).withJournal journal, inside.inDependencies, knows,
    inside.sound⟩

/-- The text of an entry is spliced as the declarations say. -/
theorem splice_eq
    (inside : Inside apart known state)
    {entry : Entry}
    (elsewhere : RefersElsewhere apart [.entry entry]) :
    (splicePieces state.session.journal entry.pieces).1 = resolvedPieces known entry.pieces ∧
      (splicePieces state.session.journal entry.pieces).2.table = state.session.journal.table := by
  refine inside.knows.splicePieces_eq fun name member => elsewhere.referenced name ?_
  simpa [DependencyLine.referenced] using member

/-- A line of the dependencies changes the entries as it means, and the variables only under names
that are apart. -/
theorem store_line
    (inside : Inside apart known state)
    {line : DependencyLine}
    (elsewhere : RefersElsewhere apart [line]) :
    ∃ journal,
      Knows apart journal.table known ∧
        line.store state =
          (state.withEntries (line.meaning known state.frame.entries)).withJournal journal := by
  cases line with
  | filler filler =>
      exact ⟨state.session.journal, inside.knows, rfl⟩
  | entry entry =>
      obtain ⟨textShape, tableShape⟩ := inside.splice_eq elsewhere
      have confApart : entry.conf.word ∈ apart :=
        elsewhere.confs entry.conf.word (by simp [DependencyLine.confs])
      have knowsSpliced :
          Knows apart (splicePieces state.session.journal entry.pieces).2.table known := by
        rw [tableShape]
        exact inside.knows
      have noList : (Value.ofScalar (resolvedPieces known entry.pieces)).items? = none := by
        unfold Value.ofScalar
        split
        · rfl
        · split <;> rfl
      refine
        ⟨(splicePieces state.session.journal entry.pieces).2.set entry.conf.word
          (.ofScalar (resolvedPieces known entry.pieces)), ?_, ?_⟩
      · rw [table_set _ entry.conf.notEmpty (stripExt_of_identifier entry.conf.toIdentifier)]
        exact knowsSpliced.set_apart confApart _
      · change entry.store state = _
        unfold Entry.store
        rw [textShape]
        have unshared :=
          inside.unshared.withJournal (splicePieces state.session.journal entry.pieces).2
        exact unshared.record_eq_of_inside inside.inDependencies entry.conf.word noList

/-- Lines of the dependencies store what they mean, and the variables go on knowing the
declarations. -/
theorem store_lines
    (inside : Inside apart known state)
    {lines : List DependencyLine}
    (elsewhere : RefersElsewhere apart lines) :
    ∃ journal,
      Knows apart journal.table known ∧
        storeDependencyLines state lines =
          (state.withEntries
            (lines.foldl (DependencyLine.meaning known) state.frame.entries)).withJournal
              journal := by
  induction lines generalizing state with
  | nil =>
      exact ⟨state.session.journal, inside.knows, rfl⟩
  | cons line lines inductionHypothesis =>
      obtain ⟨journal, knows, stored⟩ := inside.store_line elsewhere.head
      obtain ⟨last, lastKnows, lastStored⟩ :=
        inductionHypothesis (inside.changed (line.meaning known state.frame.entries) knows)
          elsewhere.tail
      refine ⟨last, lastKnows, ?_⟩
      change storeDependencyLines (line.store state) lines = _
      rw [stored, lastStored]
      rfl

end Inside

/-- A line of the dependencies is read as what it does. -/
theorem DependencyLine.readsLine
    (closures : Closures) {state : State} {rest : Text}
    {apart : List Text} {known : List (Text × Text)}
    (line : DependencyLine)
    (atLine : state.AtLine)
    (text : state.session.rest = line.text ++ rest)
    (inside : Inside apart known state.stored)
    (elsewhere : RefersElsewhere apart [line]) :
    ReadsLine closures state rest (line.store state.stored) := by
  cases line with
  | filler filler =>
      exact filler.readsLine closures atLine text
  | entry entry =>
      obtain ⟨textShape, _⟩ := inside.splice_eq elsewhere
      have allowed : state.stored.session.interpolation.allowed = true := by
        simp [Interpolation.allowed, inside.inDependencies]
      apply entry.readsLine closures atLine text allowed
      · rw [textShape]
        exact resolvedPieces_ne_nil inside.sound entry.notEmpty
      · rw [textShape]
        exact not_mem_resolvedPieces inside.sound entry.pieces

/-- Lines of the dependencies are read up to the beginning of the line after them. -/
theorem readsDependencyLines
    (closures : Closures) {state : State} {rest : Text}
    {apart : List Text} {known : List (Text × Text)} {lines : List DependencyLine}
    (atLine : state.AtLine)
    (text : state.session.rest = dependencyLinesText lines ++ rest)
    (inside : Inside apart known state.stored)
    (elsewhere : RefersElsewhere apart lines) :
    ReadsLines closures state rest (storeDependencyLines state.stored lines) := by
  induction lines generalizing state with
  | nil =>
      exact ⟨state, .refl, atLine, text, rfl⟩
  | cons line lines inductionHypothesis =>
      have lineText :
          state.session.rest = line.text ++ '\n' :: (dependencyLinesText lines ++ rest) := by
        rw [text]
        simp [dependencyLinesText]
      obtain ⟨next, reaches, nextAtLine, nextText, nextStored⟩ :=
        (line.readsLine closures atLine lineText inside elsewhere.head).lineEnd
      obtain ⟨journal, knows, stored⟩ := inside.store_line elsewhere.head
      have nextInside : Inside apart known next.stored := by
        rw [nextStored, stored]
        exact inside.changed _ knows
      obtain ⟨last, laterReaches, properties⟩ :=
        inductionHypothesis nextAtLine nextText nextInside elsewhere.tail
      rw [nextStored] at properties
      exact ⟨last, reaches.trans laterReaches, properties⟩

end GradleScript.Declarations
