import GradleScript.Proofs.Declarations.Reading

namespace GradleScript.Declarations

/-!
# Reading files with declarations

Between the sections of a file, the variables know the declarations of the files before it and of
the sections before, and the entries hold those of this file alone.  A block of extra properties
adds its declarations to both; the dependencies are stored as the known declarations say.
-/

open Plain State

/-! ## Blocks of extra properties -/

/-- What lines of extra properties mean: a scalar for each declaration. -/
theorem linesMeaning_extLines
    {entries : Mapping} {lines : List ExtLine}
    (distinct :
      (entries.map Prod.fst ++ (lines.flatMap ExtLine.declared).map Prod.fst).Nodup) :
    linesMeaning entries (lines.map ExtLine.line) =
      entries ++ (lines.flatMap ExtLine.declared).map storedEntry := by
  induction lines generalizing entries with
  | nil =>
      exact (List.append_nil entries).symm
  | cons line lines inductionHypothesis =>
      cases line with
      | filler filler =>
          exact inductionHypothesis distinct
      | declaration item =>
          have isNew : item.name.word ∉ entries.map Prod.fst := by
            intro member
            exact (List.disjoint_of_nodup_append distinct) member List.mem_cons_self
          have added :
              entries.add item.name.word (.ofScalar item.value) =
                entries ++ [storedEntry (item.name.word, item.value)] :=
            Mapping.add_of_new item.name.notEmpty isNew _
          have laterDistinct :
              ((entries ++ [storedEntry (item.name.word, item.value)]).map Prod.fst ++
                (lines.flatMap ExtLine.declared).map Prod.fst).Nodup := by
            rw [List.map_append, List.append_assoc]
            exact distinct
          have later := inductionHypothesis laterDistinct
          rw [List.append_assoc, ← added] at later
          exact later

/-- Lines of extra properties change the entries only. -/
theorem storeLines_extLines
    {state : State}
    (unshared : state.Unshared)
    (outside : state.session.interpolation.inDependencies = false)
    (lines : List ExtLine) :
    storeLines state (lines.map ExtLine.line) =
      state.withEntries (linesMeaning state.frame.entries (lines.map ExtLine.line)) := by
  induction lines generalizing state with
  | nil =>
      rfl
  | cons line lines inductionHypothesis =>
      cases line with
      | filler filler =>
          exact inductionHypothesis unshared outside
      | declaration item =>
          have recorded :=
            unshared.record_eq outside item.name.word (.ofScalar item.value)
          change
            storeLines (state.record item.name.word (.ofScalar item.value))
              (lines.map ExtLine.line) = _
          rw [recorded]
          exact inductionHypothesis (unshared.withEntries _) outside

/-- A block of extra properties is stored with a scalar for each declaration. -/
theorem ExtBlock.store_eq
    {state : State}
    (block : ExtBlock)
    (unshared : state.Unshared)
    (outside : state.session.interpolation.inDependencies = false)
    (distinct : (block.declared.map Prod.fst).Nodup) :
    block.line.store state =
      state.storeBlock extKey.word (block.declared.map storedEntry) := by
  have outsideInBlock :
      (state.enterBlock extKey.word).session.interpolation.inDependencies = false := by
    have notDependencies : (extKey.word == dependenciesKey) = false := by decide
    change (state.session.interpolation.inDependencies || extKey.word == dependenciesKey) = false
    rw [outside, notDependencies]
    rfl
  have filled :=
    storeLines_extLines (unshared.enterBlock extKey.word) outsideInBlock block.lines
  have nested : linesMeaning [] (block.lines.map ExtLine.line) = block.declared.map storedEntry :=
    linesMeaning_extLines distinct
  change (storeLines (state.enterBlock extKey.word) (block.lines.map ExtLine.line)).leaveBody = _
  rw [filled]
  change ((state.enterBlock extKey.word).withEntries
    (linesMeaning [] (block.lines.map ExtLine.line))).leaveBody = _
  rw [nested]
  exact leaveBody_enterBlock state extKey.word extKey.notEmpty _ state.session.journal

/-! ## Between sections -/

/-- What holds between two sections of a file: the variables know the declarations up to there, and
the entries hold those of the file, and of the dependencies what has been stored. -/
structure Stage
    (apart : List Text)
    (known inFile : List (Text × Text))
    (dependencies : Option Value)
    (state : State) : Prop where
  outermost : state.outer = []
  unshared : state.frame.shared = []
  notAllowed : state.session.interpolation.allowed = false
  knows : Knows apart state.session.journal.table known
  sound : ∀ declaration ∈ known, Sound declaration
  recorded : ∀ declaration ∈ inFile, declaration ∈ known
  extra :
    state.frame.entries.get? extKey.word = none ∧ inFile = [] ∨
      state.frame.entries.get? extKey.word = some (.mapping (inFile.map storedEntry))
  dependencies : state.frame.entries.get? dependenciesKey = dependencies

namespace Stage

variable {apart : List Text} {known inFile : List (Text × Text)} {dependencies : Option Value}
variable {state : State}

/-- Between two sections no body shares a list. -/
theorem allUnshared
    (stage : Stage apart known inFile dependencies state) :
    state.Unshared := by
  refine ⟨stage.unshared, ?_⟩
  rw [stage.outermost]
  intro suspended member
  cases member

/-- Between two sections no dependencies are read. -/
theorem outside
    (stage : Stage apart known inFile dependencies state) :
    state.session.interpolation.inDependencies = false := by
  have notAllowed := stage.notAllowed
  unfold Interpolation.allowed at notAllowed
  rw [Bool.or_eq_false_iff] at notAllowed
  exact notAllowed.2

/-- The declarations of a block are merged with those of the file. -/
theorem combined
    (stage : Stage apart known inFile dependencies state)
    {declared : List (Text × Text)}
    (distinct : ((inFile ++ declared).map Prod.fst).Nodup) :
    Mapping.mergeValue (state.frame.entries.get? extKey.word)
        (.mapping (declared.map storedEntry)) =
      .mapping ((inFile ++ declared).map storedEntry) := by
  rcases stage.extra with ⟨missing, nothing⟩ | present
  · rw [missing, nothing]
    simp [Mapping.mergeValue]
  · have storedDistinct :
        ((inFile.map storedEntry ++ declared.map storedEntry).map Prod.fst).Nodup := by
      rw [← List.map_append, List.map_map]
      exact distinct
    rw [present, Mapping.mergeValue, Mapping.merge_of_new storedDistinct, List.map_append]

/-- A block of extra properties makes its declarations known. -/
theorem ext
    (stage : Stage apart known inFile dependencies state)
    (block : ExtBlock)
    (distinct : ((inFile ++ block.declared).map Prod.fst).Nodup)
    (consistent : Consistent (known ++ block.declared)) :
    Stage apart (known ++ block.declared) (inFile ++ block.declared) dependencies
      (block.line.store state) := by
  have blockDistinct : (block.declared.map Prod.fst).Nodup := by
    rw [List.map_append] at distinct
    exact distinct.of_append_right
  have isGlobal : globalBlockKeys.contains extKey.word = true := by decide
  have members :
      ∀ declaration,
        declaration ∈ known ++ (inFile ++ block.declared) ↔
          declaration ∈ known ++ block.declared := by
    intro declaration
    have recorded := stage.recorded declaration
    simp only [List.mem_append]
    tauto
  have sound : ∀ declaration ∈ known ++ block.declared, Sound declaration := by
    intro declaration member
    rcases List.mem_append.mp member with inKnown | inBlock
    · exact stage.sound declaration inKnown
    · exact block.sound declaration inBlock
  have knows :=
    stage.knows.update
      (fun declaration member =>
        sound declaration ((members declaration).mp (List.mem_append_right known member)))
      (consistent.of_subset fun declaration member => (members declaration).mp member)
  rw [block.store_eq stage.allUnshared stage.outside blockDistinct,
    stage.allUnshared.storeBlock_eq_of_global isGlobal (stage.combined distinct)]
  refine ⟨stage.outermost, stage.unshared, stage.notAllowed, knows.congr members, sound, ?_, ?_, ?_⟩
  · intro declaration member
    exact (members declaration).mp (List.mem_append_right known member)
  · have read :=
      Mapping.get?_put state.frame.entries extKey.word extKey.word
        (.mapping ((inFile ++ block.declared).map storedEntry))
    rw [if_pos rfl] at read
    exact .inr read
  · have read :=
      Mapping.get?_put state.frame.entries extKey.word dependenciesKey
        (.mapping ((inFile ++ block.declared).map storedEntry))
    rw [if_neg (by decide)] at read
    exact read.trans stage.dependencies

/-- A section makes its declarations known. -/
theorem part
    (stage : Stage apart known inFile dependencies state)
    (part : Section)
    (distinct : ((inFile ++ part.declared).map Prod.fst).Nodup)
    (consistent : Consistent (known ++ part.declared)) :
    Stage apart (known ++ part.declared) (inFile ++ part.declared) dependencies
      (part.line.store state) := by
  cases part with
  | filler filler =>
      have nothing : (Section.filler filler).declared = [] := rfl
      rw [nothing, List.append_nil, List.append_nil]
      exact stage
  | ext block =>
      exact stage.ext block distinct consistent

/-- Sections that declare something lead from one stage to the next. -/
theorem parts
    (stage : Stage apart known inFile dependencies state)
    {sections : List Section}
    (distinct : ((inFile ++ declaredBy sections).map Prod.fst).Nodup)
    (consistent : Consistent (known ++ declaredBy sections)) :
    Stage apart (known ++ declaredBy sections) (inFile ++ declaredBy sections) dependencies
      (storeLines state (sections.map Section.line)) := by
  induction sections generalizing state known inFile with
  | nil =>
      have nothing : declaredBy [] = [] := rfl
      rw [nothing, List.append_nil, List.append_nil]
      exact stage
  | cons part sections inductionHypothesis =>
      have shape : declaredBy (part :: sections) = part.declared ++ declaredBy sections := by
        simp [declaredBy]
      rw [shape, ← List.append_assoc] at distinct consistent
      have partDistinct : ((inFile ++ part.declared).map Prod.fst).Nodup := by
        rw [List.map_append] at distinct
        exact distinct.of_append_left
      have partConsistent : Consistent (known ++ part.declared) :=
        consistent.of_subset fun declaration member => List.mem_append_left _ member
      have later :=
        inductionHypothesis (stage.part part partDistinct partConsistent) distinct consistent
      rw [List.append_assoc, List.append_assoc, ← shape] at later
      exact later

end Stage

/-! ## The dependencies -/

/-- What the block of the dependencies does to a state. -/
def Dependencies.store (state : State) (block : Dependencies) : State :=
  (storeDependencyLines (state.enterBlock dependenciesKey) block.lines).leaveBody

namespace Stage

variable {apart : List Text} {known inFile : List (Text × Text)} {dependencies : Option Value}
variable {state : State}

/-- The dependencies are entered with all that is known by then. -/
theorem inside
    (stage : Stage apart known inFile dependencies state) :
    Inside apart known (state.enterBlock dependenciesKey) := by
  refine ⟨stage.allUnshared.enterBlock dependenciesKey, ?_, stage.knows, stage.sound⟩
  change (state.session.interpolation.inDependencies || dependenciesKey == dependenciesKey) = true
  rw [beq_self_eq_true, Bool.or_true]

/-- The dependencies are stored as the known declarations say. -/
theorem store_dependencies
    (stage : Stage apart known inFile none state)
    {block : Dependencies}
    (elsewhere : RefersElsewhere apart block.lines) :
    Stage apart known inFile (some (.mapping (block.meaning known))) (block.store state) := by
  obtain ⟨journal, knows, filled⟩ := stage.inside.store_lines elsewhere
  have left :=
    leaveBody_enterBlock state dependenciesKey (by decide) (block.meaning known) journal
  have stored :=
    (stage.allUnshared.withJournal journal).storeBlock_eq dependenciesKey (by decide)
      (block.meaning known)
  have noneBefore : (state.withJournal journal).frame.entries.get? dependenciesKey = none :=
    stage.dependencies
  have merged :
      Mapping.mergeValue none (.mapping (block.meaning known)) =
        .mapping (block.meaning known) := by
    simp [Mapping.mergeValue]
  have shape :
      block.store state =
        (state.withJournal journal).withEntries
          (state.frame.entries.put dependenciesKey (.mapping (block.meaning known))) := by
    rw [noneBefore, merged] at stored
    unfold Dependencies.store
    rw [filled]
    exact left.trans stored
  rw [shape]
  refine ⟨stage.outermost, stage.unshared, stage.notAllowed, knows, stage.sound, stage.recorded,
    ?_, ?_⟩
  · have read :=
      Mapping.get?_put state.frame.entries dependenciesKey extKey.word
        (.mapping (block.meaning known))
    rw [if_neg (by decide)] at read
    rcases stage.extra with ⟨missing, nothing⟩ | present
    · exact .inl ⟨read.trans missing, nothing⟩
    · exact .inr (read.trans present)
  · have read :=
      Mapping.get?_put state.frame.entries dependenciesKey dependenciesKey
        (.mapping (block.meaning known))
    rw [if_pos rfl] at read
    exact read

end Stage

/-- The block of the dependencies is read as what it does. -/
theorem Dependencies.readsLine
    {state : State} {rest : Text}
    {apart : List Text} {known inFile : List (Text × Text)} {dependencies : Option Value}
    (block : Dependencies)
    (atLine : state.AtLine)
    (text : state.session.rest = block.text ++ rest)
    (stage : Stage apart known inFile dependencies state.stored)
    (elsewhere : RefersElsewhere apart block.lines) :
    ReadsLine Closures.standard state rest (block.store state.stored) := by
  simp only [Dependencies.text, List.append_assoc, List.cons_append, List.nil_append] at text
  refine block.indent.readsLine atLine text fun later laterAtLine laterText laterStored => ?_
  rw [← laterStored] at stage ⊢
  have laterTextShape :
      later.session.rest =
        dependenciesKey ++ block.gap.text ++
          '{' :: '\n' ::
            (dependencyLinesText block.lines ++ (block.closing.text ++ '}' :: rest)) := by
    rw [laterText, List.append_assoc]
  obtain ⟨journal, _, filled⟩ := stage.inside.store_lines elsewhere
  have inBlock :
      (storeDependencyLines (later.stored.enterBlock dependenciesKey) block.lines).lexical =
        (later.stored.enterBlock dependenciesKey).lexical := by
    rw [filled, lexical_withJournal, lexical_withEntries]
  exact laterAtLine.readsLine_block laterTextShape (by decide)
    (by decide) (by decide) (by decide) (by decide) block.gap.blanks block.closing.blanks inBlock
    (fun opened openedAtLine openedText openedStored => by
      have inside := stage.inside
      rw [← openedStored] at inside ⊢
      exact readsDependencyLines Closures.standard openedAtLine openedText inside elsewhere)

/-! ## Files -/

/-- The lines of an `ext` block do not enter the dependencies. -/
theorem ExtLine.enterDependencies_lines
    (lines : List ExtLine) :
    enterDependencies (lines.map ExtLine.line) = false := by
  induction lines with
  | nil =>
      rfl
  | cons line lines inductionHypothesis =>
      cases line <;> exact inductionHypothesis

/-- A section does not enter the dependencies. -/
theorem Section.entersDependencies_line
    (part : Section) :
    part.line.entersDependencies = false := by
  cases part with
  | filler filler =>
      rfl
  | ext block =>
      change
        (extKey.word == dependenciesKey || enterDependencies (block.lines.map ExtLine.line)) =
          false
      rw [ExtLine.enterDependencies_lines, Bool.or_false]
      decide

/-- The sections of a file do not enter the dependencies. -/
theorem enterDependencies_sections
    (sections : List Section) :
    enterDependencies (sections.map Section.line) = false := by
  induction sections with
  | nil =>
      rfl
  | cons part sections inductionHypothesis =>
      rw [List.map_cons, enterDependencies, part.entersDependencies_line, inductionHypothesis]
      rfl

/-- A section is read as what it does, up to the sections after it. -/
theorem Section.readsLine
    {state : State} {rest : Text}
    (part : Section)
    (atLine : state.AtLine)
    (text : state.session.rest = part.line.text ++ rest)
    (notAllowed : state.stored.session.interpolation.allowed = false) :
    ReadsLine Closures.standard state rest (part.line.store state.stored) :=
  part.line.readsLine atLine text fun _ => ⟨part.entersDependencies_line, notAllowed⟩

/-- The sections after a line are read as what they do, up to the end of the text. -/
theorem readsFollowing
    {state result : State} {sections : List Section}
    (reads :
      ReadsLine Closures.standard state
        (sections.flatMap fun part => '\n' :: part.line.text) result)
    (notAllowed : result.session.interpolation.allowed = false) :
    ReadsLine Closures.standard state [] (storeLines result (sections.map Section.line)) := by
  induction sections generalizing result with
  | nil =>
      exact reads
  | cons part sections inductionHypothesis =>
      obtain ⟨next, reaches, nextAtLine, nextText, nextStored⟩ := reads.lineEnd
      have nextNotAllowed : next.stored.session.interpolation.allowed = false := by
        rw [nextStored]
        exact notAllowed
      have read := (part.readsLine nextAtLine nextText nextNotAllowed).after reaches
      rw [nextStored] at read
      have kept :=
        congrArg (fun body => body.session.interpolation.allowed) (part.line.lexical_store result)
      exact inductionHypothesis read (kept.trans notAllowed)

/-- A root file makes its declarations known. -/
theorem RootFile.readsLine
    {state : State} {apart : List Text} {known : List (Text × Text)}
    (file : RootFile)
    (atLine : state.AtLine)
    (text : state.session.rest = file.text)
    (stage : Stage apart known [] none state.stored)
    (distinct : (file.declared.map Prod.fst).Nodup)
    (consistent : Consistent (known ++ file.declared)) :
    ∃ result,
      ReadsLine Closures.standard state [] result ∧
        Stage apart (known ++ file.declared) file.declared none result := by
  obtain ⟨next, reaches, nextAtLine, nextText, nextStored⟩ :=
    readsLines (file.sections.map Section.line) atLine text
      fun _ => ⟨enterDependencies_sections file.sections, stage.notAllowed⟩
  have kept :=
    congrArg (fun body => body.session.interpolation.allowed)
      (lexical_storeLines state.stored (file.sections.map Section.line))
  have nextNotAllowed : next.stored.session.interpolation.allowed = false := by
    rw [nextStored]
    exact kept.trans stage.notAllowed
  have lastText : next.session.rest = file.last.line.text ++ [] := by
    rw [nextText, List.append_nil]
  have read := (file.last.readsLine nextAtLine lastText nextNotAllowed).after reaches
  rw [nextStored] at read
  have shape :
      file.last.line.store (storeLines state.stored (file.sections.map Section.line)) =
        storeLines state.stored ((file.sections ++ [file.last]).map Section.line) := by
    rw [List.map_append, storeLines_append]
    rfl
  rw [shape] at read
  exact ⟨_, read, stage.parts distinct consistent⟩

/-- A main file makes its declarations known, and its dependencies mean what the declarations known
up to their place say. -/
theorem MainFile.readsLine
    {state : State} {apart : List Text} {known : List (Text × Text)}
    (file : MainFile)
    (atLine : state.AtLine)
    (text : state.session.rest = file.text)
    (stage : Stage apart known [] none state.stored)
    (distinct : (file.declared.map Prod.fst).Nodup)
    (consistent : Consistent (known ++ file.declared))
    (elsewhere : RefersElsewhere apart file.dependencies.lines) :
    ∃ result,
      ReadsLine Closures.standard state [] result ∧
        Stage apart (known ++ file.declared) file.declared
          (some (.mapping (file.dependencies.meaning (known ++ declaredBy file.before))))
          result := by
  have declaredShape : file.declared = declaredBy file.before ++ declaredBy file.after := by
    simp [MainFile.declared, declaredBy]
  rw [declaredShape] at distinct consistent ⊢
  have beforeDistinct : (([] ++ declaredBy file.before).map Prod.fst).Nodup := by
    rw [List.map_append] at distinct
    exact distinct.of_append_left
  have beforeConsistent : Consistent (known ++ declaredBy file.before) :=
    consistent.of_subset fun declaration member => by
      rw [← List.append_assoc]
      exact List.mem_append_left _ member
  have textShape :
      state.session.rest =
        linesText (file.before.map Section.line) ++
          (file.dependencies.text ++ file.after.flatMap fun part => '\n' :: part.line.text) := by
    rw [text, MainFile.text, List.append_assoc]
  obtain ⟨next, reaches, nextAtLine, nextText, nextStored⟩ :=
    readsLines (file.before.map Section.line) atLine textShape
      fun _ => ⟨enterDependencies_sections file.before, stage.notAllowed⟩
  have nextStage := stage.parts beforeDistinct beforeConsistent
  rw [← nextStored] at nextStage
  have read := (file.dependencies.readsLine nextAtLine nextText nextStage elsewhere).after reaches
  have dependenciesStage := nextStage.store_dependencies elsewhere
  rw [← List.append_assoc] at consistent
  have lastStage := dependenciesStage.parts distinct consistent
  rw [List.append_assoc] at lastStage
  exact ⟨_, readsFollowing read dependenciesStage.notAllowed, lastStage⟩

end GradleScript.Declarations
