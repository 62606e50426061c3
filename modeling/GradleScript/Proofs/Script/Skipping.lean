import GradleScript.Proofs.Block.Lines
import GradleScript.Proofs.Scan.Enclosed
import GradleScript.Proofs.Script.Ending
import GradleScript.Script

namespace GradleScript

/-!
# Constructs that contribute nothing

A call, the definition of a function and a conditional with all its alternatives are skipped.
Where such a construct stands at the beginning of a script, the script denotes what the rest of it
denotes, and leaves the same variables.
-/

/-- Whether a character may stand in the name of what is called or defined. -/
def isCallChar (ch : Char) : Bool :=
  ch.isAlphanum || ch == '_' || ch == '.'

/-- A character of a call's word has no role of its own. -/
theorem other_of_isCallChar
    {ch : Char}
    (isCall : isCallChar ch = true) :
    CharRole.of ch = .other := by
  unfold CharRole.of
  split <;> first | rfl | contradiction

/-- A character of a call's word may stand in a declaration. -/
theorem isDeclarationChar_of_isCallChar
    {ch : Char}
    (isCall : isCallChar ch = true) :
    isDeclarationChar ch = true := by
  have notEquals : ch ≠ '=' := ne_of_holds isCall (by decide)
  have notLineEnd : ch ≠ '\n' := ne_of_holds isCall (by decide)
  have notParenthesis : ch ≠ '(' := ne_of_holds isCall (by decide)
  simp [isDeclarationChar, notEquals, notLineEnd, notParenthesis]

/-- A construct that is skipped.  Between its parts there may be any whitespace. -/
inductive Skipped where
  /-- What is called, and its arguments. -/
  | call
      (name arguments : Text)
      (isName : ∀ ch ∈ name, isCallChar ch = true)
      (notIf : name ≠ ifWord)
      (encloses : parentheses.Encloses arguments)
  /-- The name of a function, its parameters, and its body. -/
  | function
      (name parameters : Text)
      (isName : ∀ ch ∈ name, isCallChar ch = true)
      (encloses : parentheses.Encloses parameters)
      (body : Enclosed braces)
  /-- An `if`, every `else if`, and perhaps a last `else`. -/
  | conditional
      (guarded : Guarded)
      (alternatives : List Alternative)
      (otherwise : Option Otherwise)

namespace Skipped

/-- The alternatives of a conditional as they are written. -/
def alternativesText (alternatives : List Alternative) (otherwise : Option Otherwise) : Text :=
  alternatives.flatMap Alternative.text ++ (otherwise.map Otherwise.text).getD []

/-- A construct as it is written. -/
def text : Skipped → Text
  | call name arguments _ _ _ =>
      name ++ arguments
  | function name parameters _ _ body =>
      defWord ++ ' ' :: name ++ parameters ++ body.text
  | conditional guarded alternatives otherwise =>
      ifWord ++ guarded.text ++ alternativesText alternatives otherwise

/-- Whether an `else` after the construct would belong to it. -/
def awaitsElse : Skipped → Bool
  | conditional _ _ none => true
  | _ => false

/-- Whether the word of a conditional ends as a key: right at the parenthesis
of its condition, or at a space or a tab.  A line end there is the end of the
statement, and a carriage return is a character of the word. -/
def WordEnds : Skipped → Prop
  | conditional guarded _ _ =>
      ∀ ch ∈ guarded.condition.gap.text.head?, ch = ' ' ∨ ch = '\t'
  | _ => True

/-- Where no further `else` follows, a conditional is skipped to its end. -/
theorem afterAlternatives_text
    (alternatives : List Alternative) (otherwise : Option Otherwise)
    {following : Text}
    (noElse :
      otherwise = none → startsWithWord elseWord (dropWhitespace following) = false) :
    afterAlternatives (alternativesText alternatives otherwise ++ following) = following := by
  unfold alternativesText
  induction alternatives with
  | nil =>
      cases otherwise with
      | none =>
          rw [List.flatMap_nil, Option.map_none, Option.getD_none, List.nil_append, List.nil_append,
            afterAlternatives, dif_neg (by rw [noElse rfl]; exact Bool.false_ne_true)]
      | some otherwise =>
          exact otherwise.afterAlternatives_text following
  | cons alternative alternatives inductionHypothesis =>
      rw [List.flatMap_cons, List.append_assoc, List.append_assoc,
        alternative.afterAlternatives_text, ← List.append_assoc]
      exact inductionHypothesis

/-- A conditional is skipped with all its alternatives, and nothing of what follows is. -/
theorem afterConditional_text
    (guarded : Guarded) (alternatives : List Alternative) (otherwise : Option Otherwise)
    {following : Text}
    (noElse :
      otherwise = none → startsWithWord elseWord (dropWhitespace following) = false) :
    afterConditional (guarded.text ++ (alternativesText alternatives otherwise ++ following)) =
      following := by
  unfold afterConditional
  rw [guarded.afterGuarded_text, afterAlternatives_text alternatives otherwise noElse]

/-- The definition of a function is skipped to its end, and declares nothing. -/
theorem readDeclaration_function
    {name parameters : Text}
    (isName : ∀ ch ∈ name, isCallChar ch = true)
    (encloses : parentheses.Encloses parameters)
    (body : Enclosed braces)
    (following : Text) :
    readDeclaration (name ++ (parameters ++ (body.text ++ following))) = ([], following) := by
  obtain ⟨rest, shape⟩ := encloses.exists_eq_parenthesis
  obtain ⟨inner, partShape⟩ := body.encloses.exists_eq_brace
  have afterParameters := encloses.exact (body.text ++ following)
  have atBody : dropWhitespace (body.text ++ following) = '{' :: (inner ++ following) := by
    unfold Enclosed.text
    rw [List.append_assoc, body.gap.dropWhitespace_append, partShape]
    rfl
  have afterBody := body.encloses.exact following
  rw [shape, List.cons_append] at afterParameters ⊢
  rw [partShape, List.cons_append] at afterBody
  have atParameters :
      (name ++ '(' :: (rest ++ (body.text ++ following))).dropWhile isDeclarationChar =
        '(' :: (rest ++ (body.text ++ following)) := by
    rw [List.dropWhile_append_of_pos
      fun ch member => isDeclarationChar_of_isCallChar (isName ch member)]
    rfl
  unfold readDeclaration
  rw [atParameters]
  unfold afterFunction
  simp only [afterParameters, atBody, afterBody]

end Skipped

namespace State

/-- A parenthesis after a key begins a call or a condition. -/
theorem Calm.steps_call
    (closures : Closures) {state : State} {rest : Text}
    (calm : state.Calm)
    (text : state.session.rest = '(' :: rest)
    (inKey : state.frame.statement.inKey = true) :
    Steps closures state
      (((state.withLineStart false).readCall ('(' :: rest)).withPrevious none) := by
  have turnShape : state.turn '(' rest = .call := by
    rw [calm.turn_eq rest (by decide) (fun _ => by decide) (by decide)
      (fun isDollar => absurd isDollar (by decide)) (by decide)]
    simp [Statement.turn, inKey]
  exact calm.steps text turnShape rfl

/-- The end of a line on which nothing is left begins the next line. -/
theorem Calm.steps_lineEnd
    (closures : Closures) {state : State} {rest : Text}
    (calm : state.Calm)
    (text : state.session.rest = '\n' :: rest)
    (empty : state.frame.statement = {}) :
    Steps closures state
      ((((state.withRest rest).withQuote .closed).withLineStart true).withPrevious
        (some '\n')) := by
  have steps := State.steps_lineEnd closures calm.comment calm.name text
  have passedEmpty : (state.withRest rest).frame.statement = {} := empty
  unfold readLineEnd at steps
  rw [flush_of_statement_eq passedEmpty] at steps
  exact steps

/-- A key that is the word of a conditional skips it. -/
theorem dispatchKey_of_if
    {state : State}
    (part : state.frame.statement.part = ifWord) :
    state.dispatchKey =
      (state.withRest (afterConditional state.session.rest)).withStatement {} := by
  unfold dispatchKey
  rw [part]
  rfl

/-- A declaring word before a function skips it. -/
theorem dispatchKey_of_function
    {state : State} {rest : Text}
    (part : state.frame.statement.part = defWord)
    (declared : readDeclaration state.session.rest = ([], rest)) :
    state.dispatchKey = (state.withRest rest).withStatement {} := by
  unfold dispatchKey
  rw [part, declared]
  rfl

/-- A parenthesis after the word of a conditional skips it. -/
theorem readCall_of_if
    {state : State}
    (part : state.frame.statement.part = ifWord)
    (text : Text) :
    state.readCall text = (state.withRest (afterConditional text)).withStatement {} := by
  unfold readCall
  rw [part]
  rfl

/-- A call that is not kept is skipped. -/
theorem readCall_of_call
    {state : State}
    (notIf : state.frame.statement.part ≠ ifWord)
    (discards : state.frame.mode.keepCalls = false)
    (text : Text) :
    state.readCall text = (state.withRest (parentheses.after text)).withStatement {} := by
  unfold readCall
  rw [if_neg (by simpa using notIf), discards]
  rfl

/-- A word at the beginning of a line, perhaps an empty one, is the part before a parenthesis. -/
theorem AtLine.reaches_part
    (closures : Closures) {state : State} {word rest : Text}
    (atLine : state.AtLine)
    (text : state.session.rest = word ++ rest)
    (others : ∀ ch ∈ word, CharRole.of ch = .other) :
    ∃ inPart : State,
      Reaches closures state inPart ∧
        inPart.Calm ∧
        inPart.session.rest = rest ∧
        inPart.frame.statement = ({} : Statement).append word ∧
        ∀ left, inPart.inLine left {} none = state.inLine left {} none := by
  by_cases noWord : word = []
  · subst noWord
    exact ⟨state, .refl, atLine.calm, text, atLine.statement, fun _ => rfl⟩
  · obtain ⟨last, reaches⟩ := reaches_firstWord closures atLine.calm text noWord others
    rw [atLine.statement] at reaches
    exact ⟨_, reaches, atLine.calm.inLine _ _ _, rfl, rfl, fun _ => rfl⟩

/-- A call or a conditional whose parenthesis follows directly is skipped. -/
theorem AtLine.reaches_call
    (closures : Closures) {state : State} {word rest left : Text}
    (atLine : state.AtLine)
    (discards : state.frame.mode.keepCalls = false)
    (text : state.session.rest = word ++ '(' :: rest)
    (others : ∀ ch ∈ word, CharRole.of ch = .other)
    (skips :
      (if word = ifWord then afterConditional ('(' :: rest) else parentheses.after ('(' :: rest)) =
        left) :
    Reaches closures state (state.inLine left {} none) := by
  obtain ⟨inPart, reaches, calm, place, statement, same⟩ :=
    atLine.reaches_part closures text others
  have part : inPart.frame.statement.part = word := by
    rw [statement]
    exact part_append_empty word
  have inKey : inPart.frame.statement.inKey = true := by
    rw [statement]
    rfl
  have stillDiscards : (inPart.withLineStart false).frame.mode.keepCalls = false := by
    have modes := congrArg (fun body => body.frame.mode) (same [])
    exact (congrArg Mode.keepCalls modes).trans discards
  have call := calm.steps_call closures place inKey
  rw [← same left, ← skips]
  by_cases isIf : word = ifWord
  · have isIfThere : (inPart.withLineStart false).frame.statement.part = ifWord := part.trans isIf
    rw [readCall_of_if isIfThere] at call
    rw [if_pos isIf]
    exact reaches.tail call
  · have notIf : (inPart.withLineStart false).frame.statement.part ≠ ifWord := part ▸ isIf
    rw [readCall_of_call notIf stillDiscards] at call
    rw [if_neg isIf]
    exact reaches.tail call

/-- A conditional at the beginning of a line is skipped with all its
alternatives, if its word ends as a key. -/
theorem AtLine.reaches_conditional
    (closures : Closures) {state : State} {following : Text}
    (atLine : state.AtLine)
    (discards : state.frame.mode.keepCalls = false)
    (guarded : Guarded) (alternatives : List Alternative) (otherwise : Option Otherwise)
    (wordEnds : (Skipped.conditional guarded alternatives otherwise).WordEnds)
    (text :
      state.session.rest =
        (Skipped.conditional guarded alternatives otherwise).text ++ following)
    (noElse :
      otherwise = none → startsWithWord elseWord (dropWhitespace following) = false) :
    ∃ last, Reaches closures state (state.inLine following {} last) := by
  obtain ⟨⟨⟨gap, isGap⟩, condition, encloses⟩, branch⟩ := guarded
  obtain ⟨inner, shape⟩ := encloses.exists_eq_parenthesis
  cases gap with
  | nil =>
      have skips :=
        Skipped.afterConditional_text ⟨⟨⟨[], isGap⟩, condition, encloses⟩, branch⟩
          alternatives otherwise noElse
      have place :
          state.session.rest =
            ifWord ++ '(' :: (inner ++ (branch.text ++
              (Skipped.alternativesText alternatives otherwise ++ following))) := by
        simp [text, Skipped.text, Guarded.text, Enclosed.text, shape]
      refine ⟨none, atLine.reaches_call closures discards place (by decide) ?_⟩
      rw [if_pos rfl]
      refine Eq.trans ?_ skips
      simp [Guarded.text, Enclosed.text, shape]
  | cons blank gap =>
      -- The first separator ends the key, and the rest of the gap is skipped.
      have isLeft : ∀ ch ∈ gap, isWhitespace ch = true :=
        fun ch member => isGap ch (List.mem_cons_of_mem blank member)
      let left : Guarded := ⟨⟨⟨gap, isLeft⟩, condition, encloses⟩, branch⟩
      have skips := Skipped.afterConditional_text left alternatives otherwise noElse
      have place :
          state.session.rest =
            ifWord ++ blank :: (left.text ++
              (Skipped.alternativesText alternatives otherwise ++ following)) := by
        simp [text, Skipped.text, Guarded.text, Enclosed.text, left]
      have dispatched :=
        atLine.reaches_dispatch closures place (by decide) (by decide)
          (delimiter_of_blank (wordEnds blank rfl))
      rw [dispatchKey_of_if (part_append_empty ifWord)] at dispatched
      refine ⟨some blank, ?_⟩
      rw [← skips]
      exact dispatched

/-- The definition of a function at the beginning of a line is skipped. -/
theorem AtLine.reaches_function
    (closures : Closures) {state : State} {name parameters following : Text}
    (atLine : state.AtLine)
    (isName : ∀ ch ∈ name, isCallChar ch = true)
    (encloses : parentheses.Encloses parameters)
    (body : Enclosed braces)
    (text :
      state.session.rest =
        (Skipped.function name parameters isName encloses body).text ++ following) :
    Reaches closures state (state.inLine following {} (some ' ')) := by
  have place :
      state.session.rest =
        defWord ++ ' ' :: (name ++ (parameters ++ (body.text ++ following))) := by
    simp [text, Skipped.text]
  have dispatched :=
    atLine.reaches_dispatch closures place (by decide) (by decide) (.inl rfl)
  rw [dispatchKey_of_function (part_append_empty defWord)
    (Skipped.readDeclaration_function isName encloses body following)] at dispatched
  exact dispatched

/-- A call with its arguments at the beginning of a line is skipped. -/
theorem AtLine.reaches_skippedCall
    (closures : Closures) {state : State} {name arguments following : Text}
    (atLine : state.AtLine)
    (discards : state.frame.mode.keepCalls = false)
    (isName : ∀ ch ∈ name, isCallChar ch = true)
    (notIf : name ≠ ifWord)
    (encloses : parentheses.Encloses arguments)
    (text :
      state.session.rest =
        (Skipped.call name arguments isName notIf encloses).text ++ following) :
    Reaches closures state (state.inLine following {} none) := by
  obtain ⟨inner, shape⟩ := encloses.exists_eq_parenthesis
  have exact := encloses.exact following
  rw [shape, List.cons_append] at exact
  have place : state.session.rest = name ++ '(' :: (inner ++ following) := by
    simp [text, Skipped.text, shape]
  refine atLine.reaches_call closures discards place
    (fun ch member => other_of_isCallChar (isName ch member)) ?_
  rw [if_neg notIf, exact]

end State

/-- A construct at the beginning of a line is skipped up to the end of its
last line. -/
theorem Skipped.reaches
    (closures : Closures) {state : State} {rest : Text}
    (construct : Skipped)
    (atLine : state.AtLine)
    (discards : state.frame.mode.keepCalls = false)
    (wordEnds : construct.WordEnds)
    (text : state.session.rest = construct.text ++ '\n' :: rest)
    (noElse :
      construct.awaitsElse = true →
        startsWithWord elseWord (dropWhitespace rest) = false) :
    ∃ last, State.Reaches closures state (state.inLine ('\n' :: rest) {} last) := by
  cases construct with
  | call name arguments isName notIf encloses =>
      exact ⟨none, atLine.reaches_skippedCall closures discards isName notIf encloses text⟩
  | function name parameters isName encloses body =>
      exact ⟨some ' ', atLine.reaches_function closures isName encloses body text⟩
  | conditional guarded alternatives otherwise =>
      refine atLine.reaches_conditional closures discards guarded alternatives otherwise
        wordEnds text ?_
      rintro rfl
      exact noElse rfl

/--
A construct that is skipped contributes nothing at the beginning of a script: with whatever
variables the pass begins, restricted or not, the script denotes what the rest after the construct
denotes, and leaves the same variables.  The word of a conditional ends as a key, and the rest
does not begin with an `else` that would belong to the construct.
-/
theorem Script.parse_skipped
    (closures : Closures)
    (construct : Skipped)
    (wordEnds : construct.WordEnds)
    (rest : Text)
    (noElse :
      construct.awaitsElse = true → startsWithWord elseWord (dropWhitespace rest) = false)
    (restricted : Bool)
    (journal : Journal) :
    (parse closures restricted journal (construct.text ++ '\n' :: rest)).1 =
        (parse closures restricted journal rest).1 ∧
      (parse closures restricted journal (construct.text ++ '\n' :: rest)).2.table =
        (parse closures restricted journal rest).2.table := by
  let text := construct.text ++ '\n' :: rest
  let first := State.start (Session.ofText text restricted journal) {} true
  let second := State.start (Session.ofText rest restricted journal) {} true
  have atLine : first.AtLine := ⟨⟨rfl, rfl, rfl⟩, rfl, rfl⟩
  obtain ⟨last, reaches⟩ := construct.reaches closures atLine rfl wordEnds rfl noElse
  have lineEnd :=
    (atLine.calm.inLine ('\n' :: rest) {} last).steps_lineEnd closures rfl rfl
  have alike :
      State.Alike Eq
        (((((first.inLine ('\n' :: rest) {} last).withRest rest).withQuote .closed).withLineStart
          true).withPrevious (some '\n'))
        second :=
    ⟨rfl, rfl, rfl⟩
  have same := alike.run rfl closures
  rw [← lineEnd.run_eq, ← State.Reaches.run_eq reaches] at same
  exact same

/-- A conditional with an `else if`, whose parts hold brackets in a literal and in a comment and the
properties of an `ext` block, contributes nothing before a statement.  Its first condition is on the
line after its `if`, behind a blank. -/
theorem Script.parse_skipped_conditional :
    ∃ construct : Skipped,
      construct.text =
          "if \n(a) \x7b ext \x7b v = 1 \x7d // \x7d\n\x7d else if(')')\x7bx 2\x7d".toList ∧
        construct.WordEnds ∧
        construct.awaitsElse = true ∧
        startsWithWord elseWord (dropWhitespace "b '$v'".toList) = false ∧
        (parse Closures.standard false {} (construct.text ++ '\n' :: "b '$v'".toList)).1 =
          (parse Closures.standard false {} "b '$v'".toList).1 := by
  have condition : parentheses.Encloses ('(' :: "a)".toList) :=
    Brackets.encloses_of_after rfl rfl rfl ['x'] (by decide) (by decide +kernel)
  have branch : braces.Encloses ('\x7b' :: " ext \x7b v = 1 \x7d // \x7d\n\x7d".toList) :=
    Brackets.encloses_of_after rfl rfl rfl ['x'] (by decide) (by decide +kernel)
  have otherCondition : parentheses.Encloses ('(' :: "')')".toList) :=
    Brackets.encloses_of_after rfl rfl rfl ['x'] (by decide) (by decide +kernel)
  have otherBranch : braces.Encloses ('\x7b' :: "x 2\x7d".toList) :=
    Brackets.encloses_of_after rfl rfl rfl ['x'] (by decide) (by decide +kernel)
  let nothing : Whitespace := ⟨[], by decide⟩
  let space : Whitespace := ⟨[' '], by decide⟩
  let nextLine : Whitespace := ⟨[' ', '\n'], by decide⟩
  let construct : Skipped :=
    .conditional ⟨⟨nextLine, _, condition⟩, ⟨space, _, branch⟩⟩
      [⟨space, space, by decide, ⟨⟨nothing, _, otherCondition⟩, ⟨nothing, _, otherBranch⟩⟩⟩] none
  have wordEnds : construct.WordEnds := by
    simp [construct, Skipped.WordEnds, nextLine]
  have noElse : startsWithWord elseWord (dropWhitespace "b '$v'".toList) = false := by decide
  exact ⟨construct, by rfl, wordEnds, rfl, noElse,
    (parse_skipped Closures.standard construct wordEnds _ (fun _ => noElse) false {}).1⟩

/-- A conditional with this whitespace between its `if` and its condition, and a branch that holds
an assignment. -/
def brokenConditional (gap : Whitespace) : Skipped :=
  .conditional
    { condition := ⟨gap, "(a)".toList,
        Brackets.encloses_of_after rfl rfl rfl ['x'] (by decide) (by decide +kernel)⟩
      branch := ⟨⟨[' '], by decide⟩, "\x7b\nx 1\n\x7d".toList,
        Brackets.encloses_of_after rfl rfl rfl ['x'] (by decide) (by decide +kernel)⟩ }
    [] none

/-- Where a line end or a carriage return follows the word of a conditional, the word is no key: the
condition is skipped as the arguments of a call are, and the branch is read as a block. -/
theorem Script.parse_skipped_brokenWord :
    let atLineEnd := brokenConditional ⟨['\n'], List.forall_mem_singleton.mpr rfl⟩
    let atReturn := brokenConditional ⟨['\r'], List.forall_mem_singleton.mpr rfl⟩
    let rest := "y 2".toList
    atLineEnd.text ++ '\n' :: rest = "if\n(a) \x7b\nx 1\n\x7d\ny 2".toList ∧
      atReturn.text ++ '\n' :: rest = "if\r(a) \x7b\nx 1\n\x7d\ny 2".toList ∧
      startsWithWord elseWord (dropWhitespace rest) = false ∧
      (parse Closures.standard false {} (atLineEnd.text ++ '\n' :: rest)).1 ≠
        (parse Closures.standard false {} rest).1 ∧
      (parse Closures.standard false {} (atReturn.text ++ '\n' :: rest)).1 ≠
        (parse Closures.standard false {} rest).1 := by
  intro atLineEnd atReturn rest
  let branchRead : Mapping := [("x".toList, .text "1".toList), ("y".toList, .text "2".toList)]
  let start (text : Text) : State := State.start (Session.ofText text false {}) {} true
  have alone :
      State.mappingAfter? .standard 3 (start rest) = some [("y".toList, .text "2".toList)] := by
    decide +kernel
  have withLineEnd :
      State.mappingAfter? .standard 40 (start (atLineEnd.text ++ '\n' :: rest)) =
        some branchRead := by
    decide +kernel
  have withReturn :
      State.mappingAfter? .standard 40 (start (atReturn.text ++ '\n' :: rest)) =
        some branchRead := by
    decide +kernel
  have aloneRead := State.mapping_run_of_mappingAfter? alone
  have lineEndRead := State.mapping_run_of_mappingAfter? withLineEnd
  have returnRead := State.mapping_run_of_mappingAfter? withReturn
  refine ⟨rfl, rfl, by decide, ?_, ?_⟩
  · change (State.run _ _).2 ≠ (State.run _ _).2
    rw [lineEndRead, aloneRead]
    decide
  · change (State.run _ _).2 ≠ (State.run _ _).2
    rw [returnRead, aloneRead]
    decide

end GradleScript
