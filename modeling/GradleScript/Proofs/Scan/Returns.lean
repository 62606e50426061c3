import GradleScript.Proofs.Scan.Continued

namespace GradleScript

/-!
# Carriage returns before line ends

A carriage return is a separator, so a scan that passes over a line end passes over one with a
carriage return before it as well.  A text with a carriage return before every line end is
therefore scanned like the text itself: what is left after a construct has the carriage returns
that it had.  A scan that stops at the end of a line stops after the carriage return.
-/

/-- A text with a carriage return before every line end. -/
def withReturns (text : Text) : Text :=
  text.flatMap fun ch => if ch = '\n' then ['\r', '\n'] else [ch]

/-- Whether a text is another one with its carriage returns, apart perhaps from the one before a
line end at the front. -/
inductive Returned : Text → Text → Prop where
  | whole (text : Text) : Returned text (withReturns text)
  | lineEnd (rest : Text) : Returned ('\n' :: rest) ('\n' :: withReturns rest)

/-- An empty text has no carriage returns to get. -/
@[simp] theorem withReturns_nil :
    withReturns [] = [] :=
  rfl

/-- A line end gets a carriage return before it. -/
@[simp] theorem withReturns_lineEnd
    (rest : Text) :
    withReturns ('\n' :: rest) = '\r' :: '\n' :: withReturns rest :=
  rfl

/-- A character that is no line end stays as it is. -/
theorem withReturns_cons
    {ch : Char}
    (notLineEnd : ch ≠ '\n')
    (rest : Text) :
    withReturns (ch :: rest) = ch :: withReturns rest := by
  unfold withReturns
  rw [List.flatMap_cons, if_neg notLineEnd]
  rfl

/-- Each part of a text gets its own carriage returns. -/
theorem withReturns_append
    (text following : Text) :
    withReturns (text ++ following) = withReturns text ++ withReturns following :=
  List.flatMap_append

/-- There is nothing to put into a single line. -/
theorem withReturns_of_oneLine
    {text : Text}
    (oneLine : '\n' ∉ text) :
    withReturns text = text := by
  induction text with
  | nil =>
      rfl
  | cons ch rest inductionHypothesis =>
      obtain ⟨notLineEnd, restOneLine⟩ := List.ne_and_not_mem_of_not_mem_cons oneLine
      rw [withReturns_cons (Ne.symm notLineEnd), inductionHypothesis restOneLine]

/-- A text begins with a character that is no line end exactly when it does with its carriage
returns. -/
theorem head?_withReturns
    {ch : Char}
    (notReturn : ch ≠ '\r') (notLineEnd : ch ≠ '\n')
    (text : Text) :
    (withReturns text).head? = some ch ↔ text.head? = some ch := by
  cases text with
  | nil =>
      rfl
  | cons first rest =>
      by_cases isLineEnd : first = '\n'
      · subst isLineEnd
        simp [notReturn.symm, notLineEnd.symm]
      · rw [withReturns_cons isLineEnd]
        rfl

/-- Both texts begin with the same character, where it ends no line. -/
theorem Returned.head?_iff
    {text other : Text} {ch : Char}
    (returned : Returned text other)
    (notReturn : ch ≠ '\r') (notLineEnd : ch ≠ '\n') :
    other.head? = some ch ↔ text.head? = some ch := by
  cases returned with
  | whole =>
      exact head?_withReturns notReturn notLineEnd text
  | lineEnd =>
      rfl

/-! ## Characters that are passed over -/

section

variable {holds : Char → Bool}

/-- What passes over line ends and carriage returns leaves the same text. -/
theorem dropWhile_withReturns
    (passesReturn : holds '\r' = true) (passesLineEnd : holds '\n' = true)
    (text : Text) :
    (withReturns text).dropWhile holds = withReturns (text.dropWhile holds) := by
  induction text with
  | nil =>
      rfl
  | cons ch rest inductionHypothesis =>
      by_cases isLineEnd : ch = '\n'
      · subst isLineEnd
        rw [withReturns_lineEnd, List.dropWhile_cons_of_pos passesReturn,
          List.dropWhile_cons_of_pos passesLineEnd, List.dropWhile_cons_of_pos passesLineEnd]
        exact inductionHypothesis
      · rw [withReturns_cons isLineEnd, List.dropWhile_cons, List.dropWhile_cons]
        split
        · exact inductionHypothesis
        · rw [withReturns_cons isLineEnd]

/-- What stops at the end of a line has passed over the carriage return. -/
theorem returned_dropWhile
    (passesReturn : holds '\r' = true) (stops : holds '\n' = false)
    (text : Text) :
    Returned (text.dropWhile holds) ((withReturns text).dropWhile holds) := by
  have atLineEnd (rest : Text) : ('\n' :: rest).dropWhile holds = '\n' :: rest :=
    List.dropWhile_cons_of_neg (by simp [stops])
  induction text with
  | nil =>
      exact .whole []
  | cons ch rest inductionHypothesis =>
      by_cases isLineEnd : ch = '\n'
      · subst isLineEnd
        rw [withReturns_lineEnd, List.dropWhile_cons_of_pos passesReturn, atLineEnd, atLineEnd]
        exact .lineEnd rest
      · rw [withReturns_cons isLineEnd, List.dropWhile_cons, List.dropWhile_cons]
        split
        · exact inductionHypothesis
        · rw [← withReturns_cons isLineEnd]
          exact .whole _

/-- A scan that passes carriage returns and stops at line ends leaves texts that differ in their
carriage returns alone. -/
theorem Returned.dropWhile
    {text other : Text}
    (returned : Returned text other)
    (passesReturn : holds '\r' = true) (stops : holds '\n' = false) :
    Returned (text.dropWhile holds) (other.dropWhile holds) := by
  cases returned with
  | whole =>
      exact returned_dropWhile passesReturn stops text
  | lineEnd rest =>
      rw [List.dropWhile_cons_of_neg (by simp [stops]),
        List.dropWhile_cons_of_neg (by simp [stops])]
      exact .lineEnd rest

/-- What stops at the end of a line may take the carriage return with it. -/
theorem Returned.takeWhile
    {text other : Text}
    (returned : Returned text other)
    (passesReturn : holds '\r' = true) (stops : holds '\n' = false) :
    other.takeWhile holds = text.takeWhile holds ∨
      other.takeWhile holds = text.takeWhile holds ++ ['\r'] := by
  have atLineEnd (rest : Text) : ('\n' :: rest).takeWhile holds = [] :=
    List.takeWhile_cons_of_neg (by simp [stops])
  cases returned with
  | lineEnd rest =>
      rw [atLineEnd, atLineEnd]
      exact .inl rfl
  | whole =>
      induction text with
      | nil =>
          exact .inl rfl
      | cons ch rest inductionHypothesis =>
          by_cases isLineEnd : ch = '\n'
          · subst isLineEnd
            rw [withReturns_lineEnd, List.takeWhile_cons_of_pos passesReturn, atLineEnd, atLineEnd]
            exact .inr rfl
          · rw [withReturns_cons isLineEnd, List.takeWhile_cons, List.takeWhile_cons]
            split
            · rcases inductionHypothesis with same | longer
              · exact .inl (congrArg (ch :: ·) same)
              · exact .inr (congrArg (ch :: ·) longer)
            · exact .inl rfl

end

/-- Whitespace ends at the same character, behind all carriage returns before it. -/
theorem Returned.dropWhitespace_eq
    {text other : Text}
    (returned : Returned text other) :
    dropWhitespace other = withReturns (dropWhitespace text) := by
  cases returned with
  | whole =>
      exact dropWhile_withReturns rfl rfl text
  | lineEnd rest =>
      exact dropWhile_withReturns rfl rfl rest

/-- No line end is left at the front where whitespace has been dropped. -/
theorem ne_lineEnd_of_dropWhitespace
    {text rest : Text} {ch : Char}
    (shape : dropWhitespace text = ch :: rest) :
    ch ≠ '\n' := by
  rintro rfl
  have visible := List.head_dropWhile_not isWhitespace (by
    intro nothing
    cases shape.symm.trans nothing)
  simp only [dropWhitespace] at shape
  simp only [shape] at visible
  cases visible

/-! ## Comments -/

/-- A carriage return does not end a comment, and is forgotten at the line end. -/
theorem Comment.hear_return
    (comment : Comment) :
    (comment.hear ['\r']).1 = false ∧
      ((comment.hear ['\r']).2.hear ['\n']).1 = (comment.hear ['\n']).1 ∧
        ((comment.hear ['\r']).2.hear ['\n']).2.recent = (comment.hear ['\n']).2.recent := by
  have noEnd (ch : Char) (notSlash : ch ≠ '/') (heard : Text) :
      hasEnd (ch :: heard.take 1) = false := by
    cases heard with
    | nil =>
        simp [hasEnd]
    | cons last before =>
        simp [hasEnd, notSlash]
  obtain ⟨kind, heard⟩ := comment
  have notReturn := noEnd '\r' (by decide) heard
  have notLineEnd := noEnd '\n' (by decide) heard
  have notLineEndAfterReturn : hasEnd ['\n', '\r'] = false := rfl
  cases kind with
  | none =>
      simp [hear, notReturn, notLineEnd, notLineEndAfterReturn, recent]
  | some kind =>
      cases kind with
      | line =>
          simp [hear]
      | block =>
          simp [hear, notReturn, notLineEnd, notLineEndAfterReturn, recent]

/-- A comment ends at the same place. -/
theorem Comment.remaining_withReturns
    (comment : Comment) (text : Text) :
    comment.remaining (withReturns text) = withReturns (comment.remaining text) := by
  induction text generalizing comment with
  | nil =>
      rfl
  | cons ch rest inductionHypothesis =>
      by_cases isLineEnd : ch = '\n'
      · subst isLineEnd
        obtain ⟨goesOn, sameEnd, sameRecent⟩ := comment.hear_return
        rw [withReturns_lineEnd, remaining, if_neg (by simp [goesOn]), remaining, remaining,
          sameEnd]
        split
        · rfl
        · rw [remaining_congr sameRecent]
          exact inductionHypothesis _
      · rw [withReturns_cons isLineEnd, remaining, remaining]
        split
        · rfl
        · exact inductionHypothesis _

/-- Only a slash or a star opens a comment behind a slash. -/
theorem commentOpener?_ne_some
    (first : Char) {second : Char}
    (notSlash : second ≠ '/') (notStar : second ≠ '*') :
    commentOpener? first second = none := by
  unfold commentOpener?
  split
  · exact (notSlash rfl).elim
  · exact (notStar rfl).elim
  · rfl

/-- A comment is opened in a line, so carriage returns open none and hide none. -/
theorem commentAt?_withReturns
    (ch : Char) (rest : Text) :
    commentAt? (ch :: withReturns rest) = commentAt? (ch :: rest) := by
  cases rest with
  | nil =>
      rfl
  | cons second body =>
      by_cases isLineEnd : second = '\n'
      · subst isLineEnd
        have noneAtReturn : commentOpener? ch '\r' = none :=
          commentOpener?_ne_some ch (by decide) (by decide)
        have noneAtLineEnd : commentOpener? ch '\n' = none :=
          commentOpener?_ne_some ch (by decide) (by decide)
        exact noneAtReturn.trans noneAtLineEnd.symm
      · rw [withReturns_cons isLineEnd]
        rfl

/-! ## Brackets -/

/-- Whether an open literal has been opened by a quote. -/
def Quote.Marked (quote : Quote) : Prop :=
  quote.isOpen = true → ∃ mark, quote.mark = some mark ∧ isQuote mark = true

/-- A literal that has been opened by a quote stays one. -/
theorem Quote.Marked.next
    {quote : Quote}
    (marked : quote.Marked)
    (ch : Char) (previous : Option Char) :
    (quote.next ch previous).Marked := by
  unfold Quote.next
  split
  · exact marked
  · split
    · split
      · intro isOpen
        cases isOpen
      · exact marked
    · split
      · next isMark =>
          exact fun _ => ⟨ch, rfl, isMark⟩
      · exact marked

/-- What is no quote neither opens nor closes a literal. -/
theorem Quote.Marked.next_eq
    {quote : Quote} {ch : Char}
    (marked : quote.Marked)
    (notQuote : isQuote ch = false)
    (previous : Option Char) :
    quote.next ch previous = quote := by
  unfold Quote.next
  split
  · rfl
  · split
    · next isOpen =>
        obtain ⟨mark, isMark, markIsQuote⟩ := marked isOpen
        have otherMark : mark ≠ ch := by
          rintro rfl
          cases markIsQuote.symm.trans notQuote
        simp [isMark, otherMark]
    · simp [notQuote]

namespace Brackets

/-- Whether no separator is a bracket. -/
def Visible (brackets : Brackets) : Prop :=
  ∀ ch, isWhitespace ch = true → brackets.opens ch = false ∧ brackets.closes ch = false

/-- A separator is no parenthesis. -/
theorem visible_parentheses : parentheses.Visible := by
  intro ch separates
  constructor
  · exact beq_false_of_ne fun isBracket => by
      rw [isBracket] at separates
      cases separates
  · exact beq_false_of_ne fun isBracket => by
      rw [isBracket] at separates
      cases separates

/-- A separator is no brace. -/
theorem visible_braces : braces.Visible := by
  intro ch separates
  constructor
  · exact beq_false_of_ne fun isBracket => by
      rw [isBracket] at separates
      cases separates
  · exact beq_false_of_ne fun isBracket => by
      rw [isBracket] at separates
      cases separates

/-- A separator counts for nothing, but for what comes before the next character. -/
theorem remaining_of_isWhitespace
    {brackets : Brackets} {quote : Quote} {ch : Char}
    (visible : brackets.Visible)
    (marked : quote.Marked)
    (separates : isWhitespace ch = true)
    (depth : Int) (previous : Option Char) (rest : Text) :
    brackets.remaining depth quote previous (ch :: rest) =
      brackets.remaining depth quote (some ch) rest := by
  have notSlash : ch ≠ '/' := by
    rintro rfl
    cases separates
  have notQuote : isQuote ch = false := by
    unfold isWhitespace at separates
    unfold isQuote
    cases role : CharRole.of ch <;> simp_all
  obtain ⟨notOpening, notClosing⟩ := visible ch separates
  rw [remaining_of_noComment brackets depth previous (.inr (commentAt?_of_ne_slash notSlash rest)),
    marked.next_eq notQuote, notOpening, notClosing]
  simp

/-- What is left inside brackets has the carriage returns that it had. -/
theorem remaining_withReturns
    {brackets : Brackets} {quote : Quote}
    (visible : brackets.Visible)
    (marked : quote.Marked)
    (depth : Int) (previous : Option Char) (text : Text) :
    brackets.remaining depth quote previous (withReturns text) =
      withReturns (brackets.remaining depth quote previous text) := by
  induction size : text.length using Nat.strongRecOn
    generalizing text depth quote previous with
  | ind length inductionHypothesis =>
    cases text with
    | nil =>
        simp [remaining]
    | cons ch rest =>
        rw [List.length_cons] at size
        have onRest {nextQuote : Quote} (nextMarked : nextQuote.Marked) (nextDepth : Int) :
            brackets.remaining nextDepth nextQuote (some ch) (withReturns rest) =
              withReturns (brackets.remaining nextDepth nextQuote (some ch) rest) :=
          inductionHypothesis rest.length (by omega) nextMarked nextDepth (some ch) rest rfl
        by_cases isLineEnd : ch = '\n'
        · subst isLineEnd
          rw [withReturns_lineEnd, remaining_of_isWhitespace visible marked rfl,
            remaining_of_isWhitespace visible marked rfl,
            remaining_of_isWhitespace visible marked rfl]
          exact onRest marked depth
        · rw [withReturns_cons isLineEnd]
          by_cases outside : quote.isOpen = true ∨ commentAt? (ch :: rest) = none
          · have outsideThere :
                quote.isOpen = true ∨ commentAt? (ch :: withReturns rest) = none := by
              rw [commentAt?_withReturns]
              exact outside
            rw [remaining_of_noComment brackets depth previous outside,
              remaining_of_noComment brackets depth previous outsideThere]
            split
            · exact onRest (marked.next ch previous) depth
            · split
              · exact onRest marked (depth + 1)
              · split
                · split
                  · rfl
                  · exact onRest marked (depth - 1)
                · exact onRest marked depth
          · obtain ⟨quoteClosed, starts⟩ := not_or.mp outside
            rw [Bool.not_eq_true] at quoteClosed
            obtain ⟨kind, found⟩ := Option.ne_none_iff_exists'.mp starts
            cases rest with
            | nil =>
                cases found
            | cons second body =>
                have opener : commentOpener? ch second = some kind := found
                have secondNotLineEnd : second ≠ '\n' := by
                  rintro rfl
                  rw [commentOpener?_ne_some ch (by decide) (by decide)] at opener
                  cases opener
                have shorter := ((Comment.opened kind).remaining_suffix body).length_le
                rw [List.length_cons] at size
                rw [withReturns_cons secondNotLineEnd,
                  remaining_of_comment brackets depth previous quoteClosed opener,
                  remaining_of_comment brackets depth previous quoteClosed opener,
                  Comment.remaining_withReturns]
                exact inductionHypothesis _ (by omega) marked depth none _ rfl

/-- What is left after a bracketed part has the carriage returns that it had. -/
theorem after_returned
    {brackets : Brackets} {text other : Text}
    (visible : brackets.Visible)
    (returned : Returned text other) :
    brackets.after other = withReturns (brackets.after text) := by
  have neverOpen : Quote.Marked {} := nofun
  unfold after
  rw [returned.dropWhitespace_eq]
  cases shape : dropWhitespace text with
  | nil =>
      rfl
  | cons ch rest =>
      have notLineEnd := ne_lineEnd_of_dropWhitespace shape
      rw [withReturns_cons notLineEnd]
      dsimp only
      split
      · rw [← withReturns_cons notLineEnd]
        exact remaining_withReturns visible neverOpen 0 none (ch :: rest)
      · rw [withReturns_cons notLineEnd]

end Brackets

/-! ## Conditionals -/

/-- A branch is skipped over its carriage returns. -/
theorem Returned.afterBranch
    {text other : Text}
    (returned : Returned text other) :
    Returned (afterBranch text) (afterBranch other) := by
  have sameVisible := returned.dropWhitespace_eq
  by_cases isBrace : (dropWhitespace text).head? = some '{'
  · obtain ⟨body, shape⟩ := List.head?_eq_some_iff.mp isBrace
    have otherShape : dropWhitespace other = '{' :: withReturns body := by
      rw [sameVisible, shape, withReturns_cons (by decide)]
    have braced : Returned ('{' :: body) ('{' :: withReturns body) := by
      rw [← withReturns_cons (by decide)]
      exact .whole _
    rw [afterBranch_of_brace shape, afterBranch_of_brace otherShape,
      Brackets.after_returned Brackets.visible_braces braced]
    exact .whole _
  · have noBraceThere : (dropWhitespace other).head? ≠ some '{' := by
      rw [sameVisible, ne_eq, head?_withReturns (by decide) (by decide)]
      exact isBrace
    rw [afterBranch_of_noBrace isBrace, afterBranch_of_noBrace noBraceThere, sameVisible]
    exact returned_dropWhile rfl rfl _

/-- A condition and its branch are skipped over their carriage returns. -/
theorem Returned.afterGuarded
    {text other : Text}
    (returned : Returned text other) :
    Returned (afterGuarded text) (afterGuarded other) := by
  have afterCondition : Returned (parentheses.after text) (parentheses.after other) := by
    rw [Brackets.after_returned Brackets.visible_parentheses returned]
    exact .whole _
  exact afterCondition.afterBranch

/-- A word on one line stands at the front with the carriage returns exactly when it does without
them. -/
theorem startsWithWord_withReturns
    {word : Text}
    (noReturn : '\r' ∉ word) (oneLine : '\n' ∉ word)
    (text : Text) :
    startsWithWord word (withReturns text) = startsWithWord word text := by
  induction word generalizing text with
  | nil =>
      have notName : isNameChar '\r' = false ∧ isNameChar '\n' = false := by decide
      cases text with
      | nil =>
          rfl
      | cons ch rest =>
          by_cases isLineEnd : ch = '\n'
          · subst isLineEnd
            simp [startsWithWord, notName]
          · rw [withReturns_cons isLineEnd]
            simp [startsWithWord]
  | cons first word inductionHypothesis =>
      obtain ⟨notReturn, noReturnInWord⟩ := List.ne_and_not_mem_of_not_mem_cons noReturn
      obtain ⟨notLineEnd, wordOneLine⟩ := List.ne_and_not_mem_of_not_mem_cons oneLine
      have onWord := inductionHypothesis noReturnInWord wordOneLine
      cases text with
      | nil =>
          rfl
      | cons ch rest =>
          by_cases isLineEnd : ch = '\n'
          · subst isLineEnd
            have otherReturn : (first == '\r') = false := beq_false_of_ne (Ne.symm notReturn)
            have otherLineEnd : (first == '\n') = false := beq_false_of_ne (Ne.symm notLineEnd)
            simp [startsWithWord, List.isPrefixOf_cons_cons, otherReturn, otherLineEnd]
          · have same := onWord rest
            unfold startsWithWord at same
            rw [withReturns_cons isLineEnd]
            simp only [startsWithWord, List.isPrefixOf_cons_cons, List.length_cons,
              List.drop_succ_cons, Bool.and_assoc, same]

/-- A word in a line has no carriage returns to get. -/
theorem drop_withReturns
    {word text : Text}
    (oneLine : '\n' ∉ word)
    (starts : startsWithWord word text = true) :
    (withReturns text).drop word.length = withReturns (text.drop word.length) := by
  have first : word <+: text := by
    simp only [startsWithWord, Bool.and_eq_true, List.isPrefixOf_iff_prefix] at starts
    exact starts.1
  obtain ⟨rest, rfl⟩ := first
  rw [withReturns_append, withReturns_of_oneLine oneLine, List.drop_left, List.drop_left]

/-- All alternatives of a conditional are skipped over their carriage returns. -/
theorem Returned.afterAlternatives
    {text other : Text}
    (returned : Returned text other) :
    Returned (afterAlternatives text) (afterAlternatives other) := by
  induction size : text.length using Nat.strongRecOn generalizing text other with
  | ind length inductionHypothesis =>
    have sameVisible := returned.dropWhitespace_eq
    have sameElse :
        startsWithWord elseWord (dropWhitespace other) =
          startsWithWord elseWord (dropWhitespace text) := by
      rw [sameVisible]
      exact startsWithWord_withReturns (by decide) (by decide) _
    by_cases elseFollows : startsWithWord elseWord (dropWhitespace text) = true
    · rw [GradleScript.afterAlternatives, dif_pos elseFollows, GradleScript.afterAlternatives,
        dif_pos (sameElse.trans elseFollows)]
      dsimp only
      rw [sameVisible, drop_withReturns (by decide) elseFollows,
        (Returned.whole ((dropWhitespace text).drop elseWord.length)).dropWhitespace_eq]
      have wordFits := length_le_of_startsWithWord elseFollows
      have wordLength : elseWord.length = 4 := rfl
      have blanks := (dropWhitespace_suffix text).length_le
      have moreBlanks :=
        (dropWhitespace_suffix ((dropWhitespace text).drop elseWord.length)).length_le
      rw [List.length_drop] at moreBlanks
      generalize dropWhitespace ((dropWhitespace text).drop elseWord.length) = alternative
        at moreBlanks ⊢
      rw [startsWithWord_withReturns (by decide) (by decide)]
      split
      · next ifFollows =>
          have guarded := (afterGuarded_suffix (alternative.drop ifWord.length)).length_le
          rw [List.length_drop] at guarded
          rw [drop_withReturns (by decide) ifFollows]
          exact inductionHypothesis _ (by omega) (Returned.whole _).afterGuarded rfl
      · exact (Returned.whole alternative).afterBranch
    · have noElse := Bool.eq_false_iff.mpr elseFollows
      rw [afterAlternatives_of_noElse noElse, afterAlternatives_of_noElse (sameElse.trans noElse)]
      exact returned

/-- A whole conditional is skipped over its carriage returns. -/
theorem Returned.afterConditional
    {text other : Text}
    (returned : Returned text other) :
    Returned (afterConditional text) (afterConditional other) :=
  returned.afterGuarded.afterAlternatives

/-! ## Declarations -/

/-- A carriage return is no part of the last word. -/
theorem lastWord_return
    (text : Text) :
    lastWord (text ++ ['\r']) = lastWord text := by
  have isBlankReturn : isBlank '\r' = true := by decide
  unfold lastWord
  rw [List.reverse_append, List.reverse_singleton, List.singleton_append,
    List.dropWhile_cons_of_pos isBlankReturn]

/-- A function is skipped over its carriage returns. -/
theorem afterFunction_withReturns
    (parameters : Text) :
    afterFunction ('(' :: withReturns parameters) =
      withReturns (afterFunction ('(' :: parameters)) := by
  have afterParameters :
      parentheses.after ('(' :: withReturns parameters) =
        withReturns (parentheses.after ('(' :: parameters)) := by
    rw [← withReturns_cons (by decide)]
    exact Brackets.after_returned Brackets.visible_parentheses (.whole _)
  have sameVisible :
      dropWhitespace (parentheses.after ('(' :: withReturns parameters)) =
        withReturns (dropWhitespace (parentheses.after ('(' :: parameters))) := by
    rw [afterParameters]
    exact (Returned.whole _).dropWhitespace_eq
  by_cases isBrace : (dropWhitespace (parentheses.after ('(' :: parameters))).head? = some '{'
  · obtain ⟨body, shape⟩ := List.head?_eq_some_iff.mp isBrace
    have otherShape :
        dropWhitespace (parentheses.after ('(' :: withReturns parameters)) =
          '{' :: withReturns body := by
      rw [sameVisible, shape, withReturns_cons (by decide)]
    rw [afterFunction_of_brace shape, afterFunction_of_brace otherShape,
      ← withReturns_cons (by decide)]
    exact Brackets.after_returned Brackets.visible_braces (.whole _)
  · have noBraceThere :
        (dropWhitespace (parentheses.after ('(' :: withReturns parameters))).head? ≠
          some '{' := by
      rw [sameVisible, ne_eq, head?_withReturns (by decide) (by decide)]
      exact isBrace
    rw [afterFunction_of_noBrace isBrace, afterFunction_of_noBrace noBraceThere]
    exact afterParameters

/-- The same name is declared. -/
theorem Returned.readDeclaration
    {text other : Text}
    (returned : Returned text other) :
    (readDeclaration other).1 = (readDeclaration text).1 ∧
      Returned (readDeclaration text).2 (readDeclaration other).2 := by
  have passesReturn : isDeclarationChar '\r' = true := rfl
  have stops : isDeclarationChar '\n' = false := rfl
  have left := returned.dropWhile passesReturn stops
  by_cases isFunction : (text.dropWhile isDeclarationChar).head? = some '('
  · obtain ⟨parameters, shape⟩ := List.head?_eq_some_iff.mp isFunction
    have otherShape : other.dropWhile isDeclarationChar = '(' :: withReturns parameters := by
      rw [shape] at left
      generalize other.dropWhile isDeclarationChar = rest at left
      cases left with
      | whole =>
          exact withReturns_cons (by decide) parameters
    rw [readDeclaration_of_parenthesis shape, readDeclaration_of_parenthesis otherShape]
    refine ⟨rfl, ?_⟩
    dsimp only
    rw [afterFunction_withReturns]
    exact .whole _
  · have noneThere : (other.dropWhile isDeclarationChar).head? ≠ some '(' := by
      rw [ne_eq, left.head?_iff (by decide) (by decide)]
      exact isFunction
    rw [readDeclaration_of_noParenthesis isFunction, readDeclaration_of_noParenthesis noneThere]
    refine ⟨?_, left⟩
    rcases returned.takeWhile passesReturn stops with same | longer
    · exact congrArg lastWord same
    · exact (congrArg lastWord longer).trans (lastWord_return _)

/-! ## What is kept with its text -/

/-- What is taken from a text comes before what remains of it. -/
theorem takenFrom_append
    {text remaining : Text}
    (atEnd : remaining <:+ text) :
    takenFrom text remaining ++ remaining = text := by
  obtain ⟨taken, rfl⟩ := atEnd
  unfold takenFrom
  rw [List.length_append, Nat.add_sub_cancel, List.take_left]

/-- A call that takes in no line end is kept as it is, and the separators after it are passed
over. -/
theorem taken_withReturns
    {rest : Text}
    (oneLine : '\n' ∉ parentheses.taken ('(' :: rest)) :
    parentheses.taken ('(' :: withReturns rest) = parentheses.taken ('(' :: rest) ∧
      Returned (dropSpaces (parentheses.after ('(' :: rest)))
        (dropSpaces (parentheses.after ('(' :: withReturns rest))) := by
  have afterCall :
      parentheses.after ('(' :: withReturns rest) =
        withReturns (parentheses.after ('(' :: rest)) := by
    rw [← withReturns_cons (by decide)]
    exact Brackets.after_returned Brackets.visible_parentheses (.whole _)
  have atCall (following : Text) : dropWhitespace ('(' :: following) = '(' :: following := rfl
  unfold Brackets.taken at oneLine ⊢
  rw [afterCall, atCall, atCall] at *
  constructor
  · have parts := takenFrom_append (parentheses.after_suffix ('(' :: rest))
    have otherParts :
        '(' :: withReturns rest =
          takenFrom ('(' :: rest) (parentheses.after ('(' :: rest)) ++
            withReturns (parentheses.after ('(' :: rest)) := by
      calc
        '(' :: withReturns rest = withReturns ('(' :: rest) :=
          (withReturns_cons (by decide) rest).symm
        _ = withReturns
              (takenFrom ('(' :: rest) (parentheses.after ('(' :: rest)) ++
                parentheses.after ('(' :: rest)) := by
          rw [parts]
        _ = _ := by
          rw [withReturns_append, withReturns_of_oneLine oneLine]
    rw [otherParts, takenFrom, List.length_append, Nat.add_sub_cancel, List.take_left]
  · exact returned_dropWhile rfl rfl _

/-- An array literal that ends on its line has the same items. -/
theorem readArray_withReturns
    {rest : Text}
    (ends : ']' ∈ rest.takeWhile fun ch => ch != '\n') :
    (readArray ('[' :: withReturns rest)).1 = (readArray ('[' :: rest)).1 ∧
      Returned (readArray ('[' :: rest)).2 (readArray ('[' :: withReturns rest)).2 := by
  obtain ⟨content, left, shape, unbroken⟩ := List.eq_append_cons_of_mem ends
  have oneLine : '\n' ∉ content := by
    intro member
    have inLine := List.mem_takeWhile_imp (shape ▸ List.mem_append_left _ member)
    simp at inLine
  have textShape : ∃ following, rest = content ++ ']' :: following := by
    have parts := List.takeWhile_append_dropWhile (p := fun ch => ch != '\n') (l := rest)
    rw [shape, List.append_assoc] at parts
    exact ⟨_, parts.symm⟩
  obtain ⟨following, rfl⟩ := textShape
  have read := readArray_brackets unbroken following
  have otherRead := readArray_brackets unbroken (withReturns following)
  rw [List.cons_append] at read otherRead
  rw [withReturns_append, withReturns_of_oneLine oneLine, withReturns_cons (by decide), read,
    otherRead]
  exact ⟨rfl, .whole following⟩

end GradleScript
