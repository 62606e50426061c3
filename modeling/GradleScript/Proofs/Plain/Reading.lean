import GradleScript.Proofs.Block.Lines
import GradleScript.Proofs.Plain.Effects
import GradleScript.Script

namespace GradleScript.Plain

/-!
# Reading plain scripts

A plain script is read as what it means.  Its lines are read one after another, a block by reading
the lines of its body, so the proof follows the tree; the literals may hold whatever else would
begin a comment, a block, a call or an array.
-/

/-! ## The characters of words -/

/-- A character of a word is no more than that. -/
structure Solid (ch : Char) : Prop where
  other : CharRole.of ch = .other
  notBlank : isBlank ch = false
  declarable : isDeclarationChar ch = true

/-- The characters of words are printed characters. -/
theorem toNat_of_isWordChar
    {ch : Char}
    (isWord : isWordChar ch = true) :
    0x21 ≤ ch.toNat ∧ ch.toNat ≤ 0x7A := by
  unfold isWordChar isKeyChar Char.isAlphanum at isWord
  delta Char.isAlpha Char.isUpper Char.isLower Char.isDigit at isWord
  simp only [Bool.or_eq_true, Bool.and_eq_true, decide_eq_true_eq, beq_iff_eq, ge_iff_le,
    UInt32.le_iff_toNat_le] at isWord
  have code : ch.val.toNat = ch.toNat := rfl
  rcases isWord with ((((((upper | lower) | digit) | rfl) | rfl) | rfl) | rfl)
  · simp at upper
    omega
  · simp at lower
    omega
  · simp at digit
    omega
  all_goals decide

/-- A printed character is no blank. -/
theorem isBlank_of_printed
    {ch : Char}
    (printed : 0x21 ≤ ch.toNat ∧ ch.toNat ≤ 0x7A) :
    isBlank ch = false := by
  simp only [isBlank, Bool.or_eq_false_iff, Bool.and_eq_false_iff, decide_eq_false_iff_not,
    beq_eq_false_iff_ne, ne_eq]
  omega

/-- A character of a word has no role of its own, is no blank, and may stand in a declaration. -/
theorem solid_of_isWordChar
    {ch : Char}
    (isWord : isWordChar ch = true) :
    Solid ch := by
  refine ⟨?_, ?_, ?_⟩
  · unfold CharRole.of
    split <;> first | rfl | contradiction
  · exact isBlank_of_printed (toNat_of_isWordChar isWord)
  · have notEquals : ch ≠ '=' := ne_of_holds isWord (by decide)
    have notLineEnd : ch ≠ '\n' := ne_of_holds isWord (by decide)
    have notParenthesis : ch ≠ '(' := ne_of_holds isWord (by decide)
    simp [isDeclarationChar, notEquals, notLineEnd, notParenthesis]

/-- The characters of a key are characters of words. -/
theorem Key.solid
    (key : Key) :
    ∀ ch ∈ key.word, Solid ch := by
  intro ch member
  apply solid_of_isWordChar
  simp [isWordChar, key.chars ch member]

/-- The characters of a word are no more than that. -/
theorem Word.solid
    (word : Word) :
    ∀ ch ∈ word.word, Solid ch :=
  fun ch member => solid_of_isWordChar (word.chars ch member)

/-- A declaring word is made of characters without a role of their own. -/
theorem others_of_isDeclarationWord
    {word : Text}
    (isDeclaring : isDeclarationWord word = true) :
    word ≠ [] ∧ ∀ ch ∈ word, CharRole.of ch = .other := by
  have declaring : word = defWord ∨ word ∈ typeWords := by
    simpa [isDeclarationWord, isTypeWord] using isDeclaring
  have all :
      ∀ known ∈ defWord :: typeWords, known ≠ [] ∧ ∀ ch ∈ known, CharRole.of ch = .other := by
    decide
  exact all word (List.mem_cons.mpr declaring)

/-! ## Arrays -/

/-- What is joined is made of the characters of its pieces and of separators. -/
theorem mem_joinWith
    {separator ch : Char} {pieces : List Text}
    (member : ch ∈ joinWith [separator] pieces) :
    ch = separator ∨ ∃ piece ∈ pieces, ch ∈ piece := by
  induction pieces with
  | nil =>
      cases member
  | cons piece pieces inductionHypothesis =>
      cases pieces with
      | nil =>
          exact .inr ⟨piece, List.mem_cons_self, member⟩
      | cons next pieces =>
          have split :
              ch ∈ piece ∨ ch = separator ∨ ch ∈ joinWith [separator] (next :: pieces) := by
            simpa [joinWith] using member
          rcases split with inPiece | isSeparator | later
          · exact .inr ⟨piece, List.mem_cons_self, inPiece⟩
          · exact .inl isSeparator
          · rcases inductionHypothesis later with isSeparator | ⟨other, otherMember, inOther⟩
            · exact .inl isSeparator
            · exact .inr ⟨other, List.mem_cons_of_mem piece otherMember, inOther⟩

namespace Item

/-- What is neither blank nor a quote stands in an item only as part of its body. -/
theorem not_mem_text
    {item : Item} {ch : Char}
    (notBlank : ch ≠ ' ' ∧ ch ≠ '\t')
    (notQuote : isQuote ch = false)
    (notInBody : ch ∉ item.literal.body) :
    ch ∉ item.text := by
  have notMark : ch ≠ item.literal.mark := (ne_of_holds item.literal.isMark notQuote).symm
  have notInGap (gap : Gap) : ch ∉ gap.text := by
    intro member
    rcases gap.blanks ch member with isSpace | isTab
    · exact notBlank.1 isSpace
    · exact notBlank.2 isTab
  simp [Item.text, Literal.text, notInGap, notMark, notInBody]

/-- An item is trimmed and unquoted to the body of its literal. -/
theorem trimQuotes_strip_text
    (item : Item) :
    trimQuotes (strip item.text) = item.literal.body := by
  have blank (gap : Gap) : ∀ ch ∈ gap.text, isBlank ch = true := by
    intro ch member
    rcases gap.blanks ch member with rfl | rfl <;> decide
  have stripped : strip item.text = item.literal.text :=
    strip_surrounded_literal item.literal.isMark item.literal.body (blank item.before)
      (blank item.after)
  rw [stripped]
  exact trimQuotes_literal item.literal.isMark item.literal.notEmpty item.literal.unbroken

end Item

/-- The items of an array literal are the bodies of its literals. -/
theorem arrayItems_joinWith
    (items : List Item) :
    arrayItems (joinWith [','] (items.map Item.text)) =
      items.map fun item => item.literal.body := by
  cases items with
  | nil =>
      rfl
  | cons first items =>
      have separate : ∀ piece ∈ (first :: items).map Item.text, ',' ∉ piece := by
        intro piece member
        obtain ⟨item, _, rfl⟩ := List.mem_map.mp member
        exact Item.not_mem_text (by decide) (by decide) item.noComma
      have kept :
          ∀ body ∈ (first :: items).map fun item => item.literal.body, (!body.isEmpty) = true := by
        intro body member
        obtain ⟨item, _, rfl⟩ := List.mem_map.mp member
        simpa using item.literal.notEmpty
      unfold arrayItems
      rw [splitOn_joinWith (by simp) separate, List.map_map]
      simp only [Function.comp_def, Item.trimQuotes_strip_text]
      exact List.filter_eq_self.mpr kept

/-! ## Assignments -/

/-- The operand of an assignment is recorded under its key. -/
theorem Operand.readsLine
    (closures : Closures) {state : State} {key : Text}
    (operand : Operand)
    (calm : state.Calm)
    (keyNotEmpty : key ≠ [])
    (dollars : ∀ ch ∈ operand.text, state.DollarIsPlain ch)
    (rest : Text) {previous : Option Char}
    (notEscaped : previous ≠ some '\\') :
    State.ReadsLine closures (state.inLine (operand.text ++ rest) ⟨key, [], false⟩ previous) rest
      (state.stored.record key operand.value) := by
  cases operand with
  | quoted literal =>
      have bodyDollars : ∀ ch ∈ literal.body, state.DollarIsPlain ch := by
        intro ch member
        exact dollars ch (by simp [Operand.text, Literal.text, member])
      have read :=
        calm.readsLine_literal closures keyNotEmpty literal.isMark literal.notEmpty
          literal.oneLine literal.unbroken literal.notEscaping bodyDollars rest notEscaped
      have shape :
          (Operand.quoted literal).text ++ rest =
            literal.mark :: literal.body ++ literal.mark :: rest := by
        simp [Operand.text, Literal.text]
      rw [shape]
      exact read
  | bare word =>
      exact calm.readsLine_word closures keyNotEmpty word.notEmpty
        (fun ch member => (word.solid ch member).other)
        (fun ch member => (word.solid ch member).notBlank) rest previous
  | array items =>
      have unbroken : ']' ∉ joinWith [','] (items.map Item.text) := by
        intro member
        rcases mem_joinWith member with isComma | ⟨piece, pieceMember, inPiece⟩
        · exact absurd isComma (by decide)
        · obtain ⟨item, _, rfl⟩ := List.mem_map.mp pieceMember
          exact Item.not_mem_text (by decide) (by decide) item.noBracket inPiece
      have read :=
        calm.readsLine_array closures unbroken key rest previous
      rw [arrayItems_joinWith, List.map_map] at read
      have shape :
          (Operand.array items).text ++ rest =
            '[' :: joinWith [','] (items.map Item.text) ++ ']' :: rest := by
        simp [Operand.text]
      rw [shape]
      exact read

/-- A gap is made of blanks and equals signs. -/
theorem Gap.delimiters
    (gap : Gap) :
    ∀ ch ∈ gap.text, ch = ' ' ∨ ch = '\t' ∨ ch = '=' :=
  fun ch member => State.delimiter_of_blank (gap.blanks ch member)

/-- The key of an assignment is read up to the operand. -/
theorem Assignment.reaches_operand
    (closures : Closures) {state : State} {rest : Text}
    (assignment : Assignment)
    (atLine : state.AtLine)
    (text : state.session.rest = assignment.text ++ rest) :
    ∃ last,
      last ≠ some '\\' ∧
        State.Reaches closures state
          (state.inLine (assignment.operand.text ++ rest) ⟨assignment.key.word, [], false⟩
            last) := by
  obtain ⟨key, tie, operand⟩ := assignment
  have keyOthers := fun ch member => (key.solid ch member).other
  cases tie with
  | blanks gap notEmpty =>
      have textShape : state.session.rest = key.word ++ gap.text ++ (operand.text ++ rest) := by
        rw [text]
        simp [Assignment.text]
      exact atLine.reaches_key closures textShape key.notEmpty keyOthers key.notKeyword notEmpty
        gap.delimiters
  | equals before after =>
      have textShape :
          state.session.rest =
            key.word ++ (before.text ++ '=' :: after.text) ++ (operand.text ++ rest) := by
        rw [text]
        simp [Assignment.text]
      apply atLine.reaches_key closures textShape key.notEmpty keyOthers key.notKeyword (by simp)
      intro ch member
      rcases List.mem_append.mp member with inBefore | afterBefore
      · exact before.delimiters ch inBefore
      · rcases List.mem_cons.mp afterBefore with isEquals | inAfter
        · exact .inr (.inr isEquals)
        · exact after.delimiters ch inAfter
  | declared declaring isDeclaring gap notEmpty before after =>
      have textShape :
          state.session.rest =
            declaring ++ gap.text ++ key.word ++ before.text ++ '=' :: after.text ++
              (operand.text ++ rest) := by
        rw [text]
        simp [Assignment.text]
      obtain ⟨declaringNotEmpty, declaringOthers⟩ := others_of_isDeclarationWord isDeclaring
      exact atLine.reaches_declaredKey closures textShape declaringNotEmpty declaringOthers
        isDeclaring notEmpty gap.blanks key.notEmpty
        (fun ch member => ⟨(key.solid ch member).notBlank, (key.solid ch member).declarable⟩)
        before.blanks after.blanks

/-- The text of an assignment has the characters of its value. -/
theorem Assignment.mem_text_of_mem_operand
    (assignment : Assignment) {ch : Char}
    (member : ch ∈ assignment.operand.text) :
    ch ∈ assignment.text := by
  obtain ⟨key, tie, operand⟩ := assignment
  cases tie <;> simp_all [Assignment.text]

/-- An assignment is read as the record of its value. -/
theorem Assignment.readsLine
    (closures : Closures) {state : State} {rest : Text}
    (assignment : Assignment)
    (atLine : state.AtLine)
    (text : state.session.rest = assignment.text ++ rest)
    (dollars : ∀ ch ∈ assignment.operand.text, state.DollarIsPlain ch) :
    State.ReadsLine closures state rest
      (state.stored.record assignment.key.word assignment.operand.value) := by
  obtain ⟨last, notEscaped, reaches⟩ :=
    assignment.reaches_operand closures atLine text
  have read :=
    assignment.operand.readsLine closures atLine.calm assignment.key.notEmpty dollars
      rest notEscaped
  exact read.after reaches

/-! ## Lines -/

/-- The separators before a line change nothing that is stored. -/
theorem Gap.readsLine
    {closures : Closures} {state result : State} {line rest : Text}
    (gap : Gap)
    (atLine : state.AtLine)
    (text : state.session.rest = gap.text ++ line)
    (reads :
      ∀ later : State,
        later.AtLine →
        later.session.rest = line →
        later.stored = state.stored →
        State.ReadsLine closures later rest result) :
    State.ReadsLine closures state rest result :=
  (reads (state.withRest line) (atLine.withRest line) rfl rfl).after
    (atLine.reaches_indentation closures text gap.blanks)

/-- A line comment stores nothing. -/
theorem LineComment.readsLine
    (closures : Closures) {state : State} {rest : Text}
    (comment : LineComment)
    (atLine : state.AtLine)
    (text : state.session.rest = '/' :: '/' :: (comment.content ++ rest)) :
    State.ReadsLine closures state rest state.stored := by
  have opens := atLine.steps_commentStart closures text (rfl : commentOpener? '/' '/' = some .line)
  have passes :=
    State.reaches_lineComment closures state comment.content rest comment.oneLine
  refine ⟨_, Relation.ReflTransGen.head opens passes,
    ⟨atLine.calm.name, atLine.calm.quote, .inr ⟨rfl, atLine.statement⟩⟩, rfl, ?_⟩
  have nothing : (state.inComment .line rest []).frame.statement = {} := atLine.statement
  rw [State.flush_of_statement_eq nothing]
  rfl

/-- A block comment in a line stores nothing. -/
theorem BlockComment.readsLine
    (closures : Closures) {state : State} {rest : Text}
    (comment : BlockComment)
    (atLine : state.AtLine)
    (text : state.session.rest = '/' :: '*' :: (comment.content ++ '*' :: '/' :: rest)) :
    State.ReadsLine closures state rest state.stored := by
  have opens := atLine.steps_commentStart closures text (rfl : commentOpener? '/' '*' = some .block)
  have passes :=
    State.reaches_blockComment closures state comment.content ('*' :: '/' :: rest) []
      comment.noEnd
  have ends :=
    State.reaches_blockCommentEnd closures state rest (comment.content.reverse ++ [])
  refine ⟨_, (Relation.ReflTransGen.head opens passes).trans ends,
    ⟨atLine.calm.name, atLine.calm.quote, .inl rfl⟩, rfl, ?_⟩
  have nothing :
      (((state.withRest rest).withComment Comment.closed).withLineStart true).frame.statement =
        {} :=
    atLine.statement
  rw [State.flush_of_statement_eq nothing]
  rfl

/-- A filler is passed over. -/
theorem Filler.readsLine
    (closures : Closures) {state : State} {rest : Text}
    (filler : Filler)
    (atLine : state.AtLine)
    (text : state.session.rest = filler.text ++ rest) :
    State.ReadsLine closures state rest state.stored := by
  cases filler with
  | blank indent =>
      refine indent.readsLine atLine text fun later laterAtLine laterText laterStored => ?_
      have read := laterAtLine.readsLine closures
      rw [laterText, laterStored] at read
      exact read
  | lineComment indent comment =>
      simp only [Filler.text, List.append_assoc, List.cons_append] at text
      refine indent.readsLine atLine text fun later laterAtLine laterText laterStored => ?_
      have read := comment.readsLine closures laterAtLine laterText
      rw [laterStored] at read
      exact read
  | blockComment indent comment =>
      simp only [Filler.text, List.append_assoc, List.cons_append, List.nil_append] at text
      refine indent.readsLine atLine text fun later laterAtLine laterText laterStored => ?_
      have read := comment.readsLine closures laterAtLine laterText
      rw [laterStored] at read
      exact read

mutual

/-- Whether a block of a line, or the line itself, is that of the dependencies. -/
def Line.entersDependencies : Line → Bool
  | .filler _ =>
      false
  | .assignment _ _ =>
      false
  | .block _ key _ body _ =>
      key.word == dependenciesKey || enterDependencies body

/-- Whether a block of some lines is that of the dependencies. -/
def enterDependencies : List Line → Bool
  | [] =>
      false
  | line :: lines =>
      line.entersDependencies || enterDependencies lines

end

/-- Whether dollar signs are characters like any other where lines are read that enter the
dependencies or do not. -/
def PlainDollars (state : State) (entersDependencies : Bool) : Prop :=
  entersDependencies = false ∧ state.session.interpolation.allowed = false

/-- Whether dollar signs are plain is seen on the lexical side. -/
theorem PlainDollars.of_lexical
    {first second : State} {entersDependencies : Bool}
    (plain : PlainDollars first entersDependencies)
    (same : first.lexical = second.lexical) :
    PlainDollars second entersDependencies := by
  have allowed :=
    congrArg (fun body => body.session.interpolation.allowed) same
  exact ⟨plain.1, allowed.symm.trans plain.2⟩

/-- Dollar signs that are plain where a block stands are plain in its body. -/
theorem PlainDollars.body
    {state : State} {key : Text} {body : List Line}
    (plain : PlainDollars state (key == dependenciesKey || enterDependencies body)) :
    PlainDollars (state.enterBlock key) (enterDependencies body) := by
  obtain ⟨none, notAllowed⟩ := plain
  rw [Bool.or_eq_false_iff] at none
  refine ⟨none.2, ?_⟩
  simp only [Interpolation.allowed, Bool.or_eq_false_iff] at notAllowed
  simp [State.enterBlock, State.withInterpolation, State.suspend, Interpolation.allowed, none.1,
    notAllowed]

mutual

/-- A line is read as what it does. -/
theorem Line.readsLine
    {state : State} {rest : Text} :
    (line : Line) →
    state.AtLine →
    state.session.rest = line.text ++ rest →
    ('$' ∈ line.text → PlainDollars state.stored line.entersDependencies) →
    State.ReadsLine Closures.standard state rest (line.store state.stored)
  | .filler filler, atLine, text, _ =>
      filler.readsLine Closures.standard atLine text
  | .assignment indent assignment, atLine, text, dollars => by
      simp only [Line.text, List.append_assoc] at text
      refine indent.readsLine atLine text fun later laterAtLine laterText laterStored => ?_
      have laterDollars : ∀ ch ∈ assignment.operand.text, later.DollarIsPlain ch := by
        rintro ch member rfl
        have plain :=
          dollars (List.mem_append_right _ (assignment.mem_text_of_mem_operand member))
        rw [← laterStored] at plain
        exact plain.2
      have read :=
        assignment.readsLine Closures.standard laterAtLine laterText laterDollars
      rw [laterStored] at read
      exact read
  | .block indent key gap body closing, atLine, text, dollars => by
      simp only [Line.text, List.append_assoc, List.cons_append, List.nil_append] at text
      have keyOthers := fun ch member => (key.solid ch member).other
      have keySolid := fun ch member => (key.solid ch member).notBlank
      have ordinary : Closures.standard.find? key.word = none := by
        simp [Closures.find?, Closures.standard, Closures.register, key.notRepositories.symm]
      refine indent.readsLine atLine text fun later laterAtLine laterText laterStored => ?_
      have laterTextShape :
          later.session.rest =
            key.word ++ gap.text ++
              '{' :: '\n' :: (linesText body ++ (closing.text ++ '}' :: rest)) := by
        rw [laterText, List.append_assoc]
      have inBlock := lexical_storeLines (later.stored.enterBlock key.word) body
      have bodyDollars :
          '$' ∈ linesText body →
            PlainDollars (later.stored.enterBlock key.word) (enterDependencies body) := by
        intro member
        rw [laterStored]
        exact (dollars (by simp [Line.text, member])).body
      have read :=
        laterAtLine.readsLine_block laterTextShape key.notEmpty
          keyOthers keySolid key.notKeyword ordinary gap.blanks closing.blanks inBlock
          (fun opened openedAtLine openedText openedStored => by
            rw [← openedStored] at bodyDollars ⊢
            exact readsLines body openedAtLine openedText bodyDollars)
      rw [laterStored] at read
      exact read

/-- Lines are read as what they do. -/
theorem readsLines
    {state : State} {rest : Text} :
    (lines : List Line) →
    state.AtLine →
    state.session.rest = linesText lines ++ rest →
    ('$' ∈ linesText lines → PlainDollars state.stored (enterDependencies lines)) →
    State.ReadsLines Closures.standard state rest (storeLines state.stored lines)
  | [], atLine, text, _ =>
      ⟨state, .refl, atLine, text, rfl⟩
  | line :: lines, atLine, text, dollars => by
      simp only [linesText, List.append_assoc, List.cons_append] at text
      have lineDollars :
          '$' ∈ line.text → PlainDollars state.stored line.entersDependencies := by
        intro member
        obtain ⟨none, notAllowed⟩ := dollars (by simp [linesText, member])
        rw [enterDependencies, Bool.or_eq_false_iff] at none
        exact ⟨none.1, notAllowed⟩
      have linesDollars :
          '$' ∈ linesText lines → PlainDollars state.stored (enterDependencies lines) := by
        intro member
        obtain ⟨none, notAllowed⟩ := dollars (by simp [linesText, member])
        rw [enterDependencies, Bool.or_eq_false_iff] at none
        exact ⟨none.2, notAllowed⟩
      obtain ⟨next, reaches, nextAtLine, nextText, nextStored⟩ :=
        (line.readsLine atLine text lineDollars).lineEnd
      have nextDollars :
          '$' ∈ linesText lines → PlainDollars next.stored (enterDependencies lines) := by
        intro member
        rw [nextStored]
        exact (linesDollars member).of_lexical (line.lexical_store state.stored).symm
      obtain ⟨last, laterReaches, properties⟩ := readsLines lines nextAtLine nextText nextDollars
      rw [nextStored] at properties
      exact ⟨last, reaches.trans laterReaches, properties⟩

end

/-! ## Scripts -/

/-- Lines do one after the other what they do together. -/
theorem storeLines_append
    (state : State) (first second : List Line) :
    storeLines state (first ++ second) = storeLines (storeLines state first) second := by
  induction first generalizing state with
  | nil =>
      rfl
  | cons line first inductionHypothesis =>
      exact inductionHypothesis (line.store state)

/-- A script is read to its end as what its lines do. -/
theorem Script.readsLine
    {state : State}
    (script : Script)
    (atLine : state.AtLine)
    (text : state.session.rest = script.text)
    (noDollar : '$' ∉ script.text) :
    State.ReadsLine Closures.standard state []
      (storeLines state.stored (script.lines ++ script.lastLine.toList)) := by
  have linesNoDollar : '$' ∉ linesText script.lines :=
    fun member => noDollar (List.mem_append_left _ member)
  obtain ⟨next, reaches, nextAtLine, nextText, nextStored⟩ :=
    readsLines script.lines atLine text fun member => absurd member linesNoDollar
  rw [storeLines_append, ← nextStored]
  cases lastLine : script.lastLine with
  | none =>
      rw [lastLine] at nextText
      have read := nextAtLine.readsLine Closures.standard
      rw [nextText] at read
      exact read.after reaches
  | some line =>
      have lineText : next.session.rest = line.text ++ [] := by
        rw [nextText, lastLine, List.append_nil]
        rfl
      have lineNoDollar : '$' ∉ line.text := by
        intro member
        exact noDollar (by simp [Script.text, lastLine, member])
      exact (line.readsLine nextAtLine lineText fun member => absurd member lineNoDollar).after
        reaches

/-- A plain script without dollar signs is parsed as the mapping that it means. -/
theorem parse_eq_meaning
    (script : Script) (restricted : Bool) (journal : Journal)
    (noDollar : '$' ∉ script.text) :
    (GradleScript.Script.parse Closures.standard restricted journal script.text).1 =
      script.meaning := by
  let start := State.start (Session.ofText script.text restricted journal) {} true
  have atLine : start.AtLine := ⟨⟨rfl, rfl, rfl⟩, rfl, rfl⟩
  have reads := script.readsLine atLine rfl noDollar
  have kept := lexical_storeLines start.stored (script.lines ++ script.lastLine.toList)
  have outermost :
      (storeLines start.stored (script.lines ++ script.lastLine.toList)).outer = [] :=
    List.map_eq_nil_iff.mp (congrArg State.outer kept)
  have entries := (reads.run_eq outermost).1
  rw [entries_storeLines] at entries
  exact entries

/-- A script with a block that comes twice, and literals that hold a brace and a comment opener. -/
def repeatedBlock : Script where
  lines := [
    .filler (.lineComment .none ⟨" sizes".toList, by decide⟩),
    .block .none ⟨⟨"app".toList, by decide, by decide, by decide⟩, by decide⟩ .space
      [
        .assignment .space
          ⟨⟨"sdk".toList, by decide, by decide, by decide⟩, .equals .space .none,
            .bare ⟨"33".toList, by decide, by decide⟩⟩,
        .assignment .tab
          ⟨⟨"name".toList, by decide, by decide, by decide⟩,
            .blanks .space Gap.text_space_ne_nil,
            .quoted ⟨'"', "a\x7d'".toList, rfl, by decide, by decide, by decide, by decide⟩⟩]
      .none]
  lastLine :=
    some (.block .none ⟨⟨"app".toList, by decide, by decide, by decide⟩, by decide⟩ .none
      [
        .assignment .none
          ⟨⟨"urls".toList, by decide, by decide, by decide⟩,
            .declared "def".toList rfl .space Gap.text_space_ne_nil .none .none,
            .array [
              ⟨.none, ⟨'\'', "//".toList, rfl, by decide, by decide, by decide, by decide⟩, .none,
                by decide, by decide⟩]⟩]
      .none)

/-- The second block is merged into the first one. -/
theorem parse_eq_meaning_repeatedBlock :
    '$' ∉ repeatedBlock.text ∧
      (GradleScript.Script.parse Closures.standard true {} repeatedBlock.text).1 =
        [("app".toList, .mapping [
          ("sdk".toList, .text "33".toList),
          ("name".toList, .text "a\x7d'".toList),
          ("urls".toList, .list [.text "//".toList])])] := by
  have noDollar : '$' ∉ repeatedBlock.text := by decide
  refine ⟨noDollar, ?_⟩
  rw [parse_eq_meaning repeatedBlock true {} noDollar]
  decide

end GradleScript.Plain
