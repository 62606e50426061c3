import GradleScript.Proofs.Scan.Closers
import GradleScript.Proofs.Value.Written

namespace GradleScript

/-!
# Constructs before closers

A conditional and a declaration are skipped before closers up to a place that the closers
continue, even where the end of the text has cut them off.  A call and an array literal that are
kept with their text are read as they are when they end in the text; they do where something is
left after them.
-/

/-! ## Conditionals -/

/-- A branch in braces ends with its closing brace. -/
theorem afterBranch_of_brace
    {text body : Text}
    (shape : dropWhitespace text = '{' :: body) :
    afterBranch text = braces.after ('{' :: body) := by
  unfold afterBranch
  rw [shape]
  rfl

/-- A branch without braces ends with its line. -/
theorem afterBranch_of_noBrace
    {text : Text}
    (noBrace : (dropWhitespace text).head? ≠ some '{') :
    afterBranch text = (dropWhitespace text).dropWhile fun ch => ch != '\n' := by
  unfold afterBranch
  split
  · next body shape =>
      rw [shape] at noBrace
      exact (noBrace rfl).elim
  · rfl

/-- A branch that begins among closers ends with its line. -/
theorem closedBy_afterBranch_closers
    {closers : Text}
    (isClosers : Closers closers) :
    ClosedBy closers [] (afterBranch closers) := by
  rcases isClosers.dropWhitespace_cases with nothing | ⟨rest, shape, restClosers, inClosers⟩
  · rw [afterBranch_of_noBrace (by rw [nothing]; exact nofun), nothing]
    exact .of_nil .nil List.nil_suffix
  · rw [afterBranch_of_noBrace (by rw [shape]; simp), shape,
      List.dropWhile_cons_of_pos (by decide), restClosers.dropWhile_eq (by decide)]
    exact .of_nil restClosers inClosers

/-- A branch is skipped up to a place that closers after the text continue. -/
theorem readsClosers_afterBranch : ReadsClosers afterBranch := by
  intro text closers isClosers
  by_cases blank : dropWhitespace text = []
  · have nothing : afterBranch text = [] := by
      rw [afterBranch_of_noBrace (by rw [blank]; exact nofun), blank]
      rfl
    have goesOn : afterBranch (text ++ closers) = afterBranch closers := by
      unfold afterBranch
      rw [dropWhitespace_append, if_pos blank]
    rw [nothing, goesOn]
    exact closedBy_afterBranch_closers isClosers
  · have atBranch : dropWhitespace (text ++ closers) = dropWhitespace text ++ closers := by
      rw [dropWhitespace_append, if_neg blank]
    obtain ⟨ch, rest, shape⟩ := List.exists_cons_of_ne_nil blank
    rw [shape] at atBranch
    by_cases isBrace : ch = '{'
    · subst isBrace
      rw [afterBranch_of_brace shape, afterBranch_of_brace atBranch]
      exact Brackets.closedBy_after rfl rfl rfl isClosers rest
    · have notBrace : (ch :: rest).head? ≠ some '{' := by
        simpa using isBrace
      rw [afterBranch_of_noBrace (shape ▸ notBrace), afterBranch_of_noBrace (atBranch ▸ notBrace),
        shape, atBranch]
      exact readsClosers_dropWhile rfl (ch :: rest) closers isClosers

/-- A branch is where its whitespace ends. -/
theorem afterBranch_dropWhitespace
    (text : Text) :
    afterBranch (dropWhitespace text) = afterBranch text := by
  have idempotent : dropWhitespace (dropWhitespace text) = dropWhitespace text :=
    List.dropWhile_idempotent _ _
  unfold afterBranch
  rw [idempotent]

/-- A condition with its branch is skipped up to a place that closers after the text continue. -/
theorem readsClosers_afterGuarded : ReadsClosers afterGuarded := by
  intro text closers isClosers
  unfold afterGuarded
  by_cases blank : dropWhitespace text = []
  · have nothing : parentheses.after text = [] := by
      unfold Brackets.after
      rw [blank]
    have goesOn : parentheses.after (text ++ closers) = dropWhitespace closers := by
      unfold Brackets.after
      rw [dropWhitespace_append, if_pos blank]
      rcases isClosers.dropWhitespace_cases with none | ⟨rest, shape, _, _⟩
      · rw [none]
      · rw [shape]
        rfl
    rw [nothing, goesOn, afterBranch_dropWhitespace]
    exact closedBy_afterBranch_closers isClosers
  · exact (parentheses.closedBy_after_of_visible rfl isClosers blank).map afterBranch
      (readsClosers_afterBranch _) rfl

/-- Where no `else` follows, nothing more of a conditional is skipped. -/
theorem afterAlternatives_of_noElse
    {text : Text}
    (noElse : startsWithWord elseWord (dropWhitespace text) = false) :
    afterAlternatives text = text := by
  rw [afterAlternatives, dif_neg (by rw [noElse]; exact Bool.false_ne_true)]

/-- The alternatives of a conditional, however many there are, are skipped up to a place that
closers after the text continue. -/
theorem readsClosers_afterAlternatives : ReadsClosers afterAlternatives := by
  intro text closers isClosers
  induction size : text.length using Nat.strongRecOn generalizing text closers with
  | ind length inductionHypothesis =>
    by_cases elseFollows : startsWithWord elseWord (dropWhitespace text) = true
    · have visible : dropWhitespace text ≠ [] := by
        intro blank
        rw [blank] at elseFollows
        cases elseFollows
      have atElse : dropWhitespace (text ++ closers) = dropWhitespace text ++ closers := by
        rw [dropWhitespace_append, if_neg visible]
      have stillFollows : startsWithWord elseWord (dropWhitespace (text ++ closers)) = true := by
        rw [atElse, startsWithWord_closers isClosers (by decide)]
        exact elseFollows
      have wordFits := length_le_of_startsWithWord elseFollows
      have blanks := (dropWhitespace_suffix text).length_le
      have wordLength : elseWord.length = 4 := rfl
      rw [afterAlternatives, dif_pos elseFollows, afterAlternatives, dif_pos stillFollows]
      dsimp only
      rw [atElse, List.drop_append_of_le_length wordFits]
      generalize afterElse : (dropWhitespace text).drop elseWord.length = tail
      have tailShorter : tail.length < length := by
        rw [← afterElse, List.length_drop]
        omega
      rw [dropWhitespace_append]
      by_cases blank : dropWhitespace tail = []
      · rw [if_pos blank, blank, startsWithWord_dropWhitespace_closers isClosers (by decide)
          (by decide), afterBranch_dropWhitespace]
        exact closedBy_afterBranch_closers isClosers
      · rw [if_neg blank, startsWithWord_closers isClosers (by decide)]
        split
        · next ifFollows =>
            have ifFits := length_le_of_startsWithWord ifFollows
            have moreBlanks := (dropWhitespace_suffix tail).length_le
            have guarded :=
              (afterGuarded_suffix ((dropWhitespace tail).drop ifWord.length)).length_le
            rw [List.length_drop] at guarded
            rw [List.drop_append_of_le_length ifFits]
            apply (readsClosers_afterGuarded _ closers isClosers).map afterAlternatives _
              (afterAlternatives_of_noElse rfl)
            intro left leftClosers
            exact inductionHypothesis _ (by omega) _ left leftClosers rfl
        · exact readsClosers_afterBranch _ closers isClosers
    · rw [Bool.not_eq_true] at elseFollows
      have stillNot : startsWithWord elseWord (dropWhitespace (text ++ closers)) = false := by
        rw [dropWhitespace_append]
        split
        · exact startsWithWord_dropWhitespace_closers isClosers (by decide) (by decide)
        · rw [startsWithWord_closers isClosers (by decide)]
          exact elseFollows
      rw [afterAlternatives_of_noElse elseFollows, afterAlternatives_of_noElse stillNot]
      exact .append isClosers text

/-- A whole conditional is skipped up to a place that closers after the text continue. -/
theorem readsClosers_afterConditional : ReadsClosers afterConditional := by
  intro text closers isClosers
  exact (readsClosers_afterGuarded text closers isClosers).map afterAlternatives
    (readsClosers_afterAlternatives _) (afterAlternatives_of_noElse rfl)

/-! ## Declarations -/

/-- A function with a body ends with the closing brace of the body. -/
theorem afterFunction_of_brace
    {text body : Text}
    (shape : dropWhitespace (parentheses.after text) = '{' :: body) :
    afterFunction text = braces.after ('{' :: body) := by
  unfold afterFunction
  dsimp only
  rw [shape]
  rfl

/-- A function without a body ends with its parameters. -/
theorem afterFunction_of_noBrace
    {text : Text}
    (noBrace : (dropWhitespace (parentheses.after text)).head? ≠ some '{') :
    afterFunction text = parentheses.after text := by
  unfold afterFunction
  dsimp only
  split
  · next body shape =>
      rw [shape] at noBrace
      exact (noBrace rfl).elim
  · rfl

/-- A function that closers continue is skipped up to a place that they continue. -/
theorem closedBy_afterFunction
    {closers : Text}
    (isClosers : Closers closers)
    (rest : Text) :
    ClosedBy closers (afterFunction ('(' :: rest)) (afterFunction ('(' :: rest ++ closers)) := by
  have parametersClosed :
      ClosedBy closers (parentheses.after ('(' :: rest))
        (parentheses.after ('(' :: rest ++ closers)) :=
    Brackets.closedBy_after rfl rfl rfl isClosers rest
  have ⟨left, leftClosers, _, parametersAppend, whole⟩ := parametersClosed
  by_cases isBrace : (dropWhitespace (parentheses.after ('(' :: rest))).head? = some '{'
  · obtain ⟨body, shape⟩ := List.head?_eq_some_iff.mp isBrace
    have notBlank : dropWhitespace (parentheses.after ('(' :: rest)) ≠ [] := by
      rw [shape]
      exact List.cons_ne_nil _ _
    have notEmpty : parentheses.after ('(' :: rest) ≠ [] := by
      intro nothing
      rw [nothing] at notBlank
      exact notBlank rfl
    have atBody :
        dropWhitespace (parentheses.after ('(' :: rest ++ closers)) = '{' :: (body ++ closers) := by
      rw [parametersAppend, whole notEmpty, dropWhitespace_append, if_neg notBlank, shape]
      rfl
    rw [afterFunction_of_brace shape, afterFunction_of_brace atBody]
    exact Brackets.closedBy_after rfl rfl rfl isClosers body
  · have stillNoBrace :
        (dropWhitespace (parentheses.after ('(' :: rest ++ closers))).head? ≠ some '{' := by
      rw [parametersAppend, dropWhitespace_append]
      split
      · rcases leftClosers.dropWhitespace_cases with nothing | ⟨_, shape, _, _⟩
        · rw [nothing]
          exact nofun
        · rw [shape]
          simp
      · next notBlank =>
          rw [List.head?_append_of_ne_nil _ notBlank]
          exact isBrace
    rw [afterFunction_of_noBrace isBrace, afterFunction_of_noBrace stillNoBrace]
    exact parametersClosed

/-- A declaration with parameters is a function, which declares no name. -/
theorem readDeclaration_of_parenthesis
    {text parameters : Text}
    (shape : text.dropWhile isDeclarationChar = '(' :: parameters) :
    readDeclaration text = ([], afterFunction ('(' :: parameters)) := by
  unfold readDeclaration
  rw [shape]
  rfl

/-- A declaration without parameters declares its last word. -/
theorem readDeclaration_of_noParenthesis
    {text : Text}
    (noParenthesis : (text.dropWhile isDeclarationChar).head? ≠ some '(') :
    readDeclaration text =
      (lastWord (text.takeWhile isDeclarationChar), text.dropWhile isDeclarationChar) := by
  unfold readDeclaration
  split
  · next parameters shape =>
      rw [shape] at noParenthesis
      exact (noParenthesis rfl).elim
  · rfl

/-- The same name is declared with closers after the text, and what is left is continued by them. -/
theorem readDeclaration_closers
    (text : Text)
    {closers : Text}
    (isClosers : Closers closers) :
    (readDeclaration (text ++ closers)).1 = (readDeclaration text).1 ∧
      ClosedBy closers (readDeclaration text).2 (readDeclaration (text ++ closers)).2 := by
  have stops : isDeclarationChar '\n' = false := rfl
  have headClosed := readsClosers_dropWhile stops text closers isClosers
  by_cases isFunction : (text.dropWhile isDeclarationChar).head? = some '('
  · obtain ⟨parameters, shape⟩ := List.head?_eq_some_iff.mp isFunction
    have atParameters := headClosed.eq_append (by rw [shape]; exact List.cons_ne_nil _ _)
    rw [shape] at atParameters
    rw [readDeclaration_of_parenthesis shape, readDeclaration_of_parenthesis atParameters]
    exact ⟨rfl, closedBy_afterFunction isClosers parameters⟩
  · have stillNone : ((text ++ closers).dropWhile isDeclarationChar).head? ≠ some '(' := by
      intro isFunctionThere
      exact isFunction (headClosed.head?_eq (by decide) isFunctionThere)
    have sameHead :
        (text ++ closers).takeWhile isDeclarationChar = text.takeWhile isDeclarationChar := by
      rw [List.takeWhile_append, isClosers.takeWhile_eq stops]
      split
      · next whole =>
          rw [List.append_nil]
          exact ((List.takeWhile_prefix isDeclarationChar).eq_of_length whole).symm
      · rfl
    rw [readDeclaration_of_noParenthesis isFunction, readDeclaration_of_noParenthesis stillNone,
      sameHead]
    exact ⟨rfl, headClosed⟩

/-! ## What is kept with its text -/

/-- What does not stand in the end of a text is followed there by the whole end. -/
theorem exists_eq_append_of_not_mem
    {text following before left : Text} {ch : Char}
    (notInEnd : ch ∉ following)
    (shape : text ++ following = before ++ ch :: left) :
    ∃ rest, text = before ++ ch :: rest ∧ left = rest ++ following := by
  rcases List.append_eq_append_iff.mp shape with
    ⟨middle, _, endShape⟩ | ⟨middle, textShape, leftShape⟩
  · exact (notInEnd (endShape ▸ List.mem_append_right middle List.mem_cons_self)).elim
  · cases middle with
    | nil =>
        rw [List.nil_append] at leftShape
        exact (notInEnd (leftShape ▸ List.mem_cons_self)).elim
    | cons first rest =>
        rw [List.cons_append] at leftShape
        obtain ⟨rfl, leftIs⟩ := List.cons.inj leftShape
        exact ⟨rest, textShape, leftIs⟩

namespace Brackets

/-- Skipping that leaves something of the text has come to a closing bracket. -/
theorem exists_closes_of_remaining
    (brackets : Brackets)
    (depth : Int) (quote : Quote) (previous : Option Char)
    {text : Text}
    (left : brackets.remaining depth quote previous text ≠ []) :
    ∃ before closing,
      brackets.closes closing = true ∧
        text = before ++ closing :: brackets.remaining depth quote previous text := by
  induction size : text.length using Nat.strongRecOn generalizing text depth quote previous with
  | ind length inductionHypothesis =>
    cases text with
    | nil =>
        rw [remaining] at left
        exact (left rfl).elim
    | cons ch rest =>
        rw [List.length_cons] at size
        by_cases outside : quote.isOpen = true ∨ commentAt? (ch :: rest) = none
        · rcases brackets.remaining_cons depth quote previous ch with
            ⟨isClosing, ends⟩ | ⟨nextDepth, nextQuote, leadsOn⟩
          · rw [ends rest outside]
            exact ⟨[], ch, isClosing, rfl⟩
          · rw [leadsOn rest outside] at left ⊢
            obtain ⟨before, closing, isClosing, shape⟩ :=
              inductionHypothesis rest.length (by omega) _ _ _ left rfl
            exact ⟨ch :: before, closing, isClosing, congrArg (List.cons ch) shape⟩
        · obtain ⟨quoteClosed, starts⟩ := not_or.mp outside
          rw [Bool.not_eq_true] at quoteClosed
          cases rest with
          | nil =>
              exact (starts rfl).elim
          | cons second body =>
              obtain ⟨kind, opener⟩ := Option.ne_none_iff_exists'.mp starts
              rw [remaining_of_comment brackets depth previous quoteClosed opener] at left ⊢
              obtain ⟨skipped, bodyShape⟩ := (Comment.opened kind).remaining_suffix body
              have bodyLength := congrArg List.length bodyShape
              rw [List.length_append] at bodyLength
              rw [List.length_cons] at size
              obtain ⟨before, closing, isClosing, shape⟩ :=
                inductionHypothesis _ (by omega) _ _ _ left rfl
              refine ⟨ch :: second :: (skipped ++ before), closing, isClosing, ?_⟩
              rw [List.cons_append, List.cons_append, List.append_assoc, ← shape, bodyShape]

end Brackets

/-- Whether the call at the front of a text ends in the text. -/
def CallEnds (text : Text) : Prop :=
  ∃ call following, text = call ++ following ∧ parentheses.Encloses call

/-- A call after which something is left of a text with closers ends in the text. -/
theorem callEnds_of_after
    {rest closers : Text}
    (isClosers : Closers closers)
    (left : parentheses.after ('(' :: rest ++ closers) ≠ []) :
    CallEnds ('(' :: rest) := by
  have skipped :
      parentheses.after ('(' :: rest ++ closers) =
        parentheses.remaining 0 {} none ('(' :: rest ++ closers) :=
    Brackets.after_of_opens rfl rfl (rest ++ closers)
  have leftOver := left
  rw [skipped] at leftOver
  obtain ⟨before, closing, isClosing, shape⟩ :=
    parentheses.exists_closes_of_remaining 0 {} none leftOver
  have isParenthesis : closing = ')' := by
    simpa [parentheses] using isClosing
  subst isParenthesis
  rw [← skipped] at shape
  obtain ⟨following, textShape, _⟩ :=
    exists_eq_append_of_not_mem (isClosers.not_mem (by decide) (by decide)) shape
  have notFirst : ∃ inner, before = '(' :: inner := by
    cases before with
    | nil =>
        cases textShape
    | cons first inner =>
        obtain ⟨rfl, _⟩ := List.cons.inj textShape
        exact ⟨inner, rfl⟩
  obtain ⟨inner, rfl⟩ := notFirst
  refine ⟨'(' :: (inner ++ [')']), following, by rw [textShape]; simp, ?_⟩
  refine Brackets.encloses_of_after rfl rfl rfl _ left ?_
  have wholeShape :
      '(' :: rest ++ closers =
        '(' :: (inner ++ [')']) ++ parentheses.after ('(' :: rest ++ closers) := by
    refine shape.trans ?_
    simp
  exact (congrArg parentheses.after wholeShape).symm

/-- What brackets enclose is taken whole, whatever follows it. -/
theorem taken_of_encloses
    {brackets : Brackets} {part : Text}
    (encloses : brackets.Encloses part)
    (visible : ∀ ch, brackets.opens ch = true → isWhitespace ch = false)
    (following : Text) :
    brackets.taken (part ++ following) = part := by
  obtain ⟨opening, inner, rfl, opens⟩ := encloses.opens
  have atPart : dropWhitespace (opening :: inner ++ following) = opening :: inner ++ following := by
    simp [dropWhitespace, visible opening opens]
  unfold Brackets.taken takenFrom
  rw [encloses.exact, atPart, List.length_append, Nat.add_sub_cancel, List.take_left]

/-- A parenthesis is no whitespace, so a call begins with its parenthesis. -/
theorem isWhitespace_of_parentheses
    {ch : Char}
    (opens : parentheses.opens ch = true) :
    isWhitespace ch = false := by
  have isParenthesis : ch = '(' := by
    simpa [parentheses] using opens
  rw [isParenthesis]
  rfl

/-- A call that ends in a text is taken as it is where closers follow, and the separators after it
are continued by them. -/
theorem taken_closers
    {text closers : Text}
    (ends : CallEnds text)
    (isClosers : Closers closers) :
    parentheses.taken (text ++ closers) = parentheses.taken text ∧
      ClosedBy closers (dropSpaces (parentheses.after text))
        (dropSpaces (parentheses.after (text ++ closers))) := by
  obtain ⟨call, following, rfl, encloses⟩ := ends
  have visible (ch : Char) (opens : parentheses.opens ch = true) : isWhitespace ch = false :=
    isWhitespace_of_parentheses opens
  rw [List.append_assoc, encloses.exact, encloses.exact, taken_of_encloses encloses visible,
    taken_of_encloses encloses visible]
  exact ⟨rfl, readsClosers_dropWhile rfl following closers isClosers⟩

/-- Closers after a text do not change how an array literal in it begins. -/
theorem dropArrayStart_closers
    (text : Text)
    {closers : Text}
    (isClosers : Closers closers) :
    dropArrayStart (text ++ closers) = dropArrayStart text ++ closers := by
  cases text with
  | nil =>
      cases isClosers <;> rfl
  | cons ch rest =>
      unfold dropArrayStart
      split
      · next content shape =>
          cases shape
          rfl
      · next notStart =>
          split
          · next content shape =>
              cases shape
              exact (notStart _ rfl).elim
          · rfl

/-- An array literal after which something is left of a text with closers ends in the text. -/
theorem mem_of_readArray
    {text closers : Text}
    (isClosers : Closers closers)
    (left : (readArray (text ++ closers)).2 ≠ []) :
    ']' ∈ dropArrayStart text := by
  have found : ']' ∈ dropArrayStart text ++ closers := by
    rw [← dropArrayStart_closers text isClosers]
    by_cases found : ']' ∈ dropArrayStart (text ++ closers)
    · exact found
    · have nothing : (dropArrayStart (text ++ closers)).dropWhile (fun ch => ch != ']') = [] := by
        rw [List.dropWhile_eq_nil_iff]
        intro ch member
        rw [bne_iff_ne]
        rintro rfl
        exact found member
      unfold readArray at left
      dsimp only at left
      rw [nothing] at left
      exact (left rfl).elim
  rcases List.mem_append.mp found with inText | inClosers
  · exact inText
  · exact (isClosers.not_mem (by decide) (by decide) inClosers).elim

/-- An array literal that ends in a text is read as it is where closers follow. -/
theorem readArray_closers
    {text : Text}
    (ends : ']' ∈ dropArrayStart text)
    {closers : Text}
    (isClosers : Closers closers) :
    (readArray (text ++ closers)).1 = (readArray text).1 ∧
      ClosedBy closers (readArray text).2 (readArray (text ++ closers)).2 := by
  obtain ⟨content, rest, shape, unbroken⟩ := List.eq_append_cons_of_mem ends
  have read : readArray text = (arrayItems content, rest) := by
    rw [← readArray_brackets unbroken rest, List.cons_append, ← shape]
    rfl
  have readThere : readArray (text ++ closers) = (arrayItems content, rest ++ closers) := by
    have shapeThere : dropArrayStart (text ++ closers) = content ++ ']' :: (rest ++ closers) := by
      rw [dropArrayStart_closers text isClosers, shape, List.append_assoc, List.cons_append]
    rw [← readArray_brackets unbroken (rest ++ closers), List.cons_append, ← shapeThere]
    rfl
  rw [read, readThere]
  exact ⟨rfl, .append isClosers rest⟩

end GradleScript
