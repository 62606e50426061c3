import GradleScript.Scan.Declaration
import GradleScript.Value.ArrayLiteral

namespace GradleScript

/-!
# Values as they are written

What trimming, unquoting, and the readers of arrays and declarations give back of a text that has
been written in their form.
-/

/-! ## Trimming -/

/-- A text that does not begin with characters of a kind has none of them to drop. -/
theorem dropWhile_eq_self_of_head
    {holds : Char → Bool} {text : Text}
    (head : ∀ ch, text.head? = some ch → holds ch = false) :
    text.dropWhile holds = text := by
  cases text with
  | nil =>
      rfl
  | cons ch rest =>
      simp [head ch rfl]

/-- Trimming takes away the blanks around a text that neither begins nor ends with one. -/
theorem strip_surrounded
    {before text after : Text}
    (blanksBefore : ∀ ch ∈ before, isBlank ch = true)
    (blanksAfter : ∀ ch ∈ after, isBlank ch = true)
    (head : ∀ ch, text.head? = some ch → isBlank ch = false)
    (last : ∀ ch, text.getLast? = some ch → isBlank ch = false) :
    strip (before ++ text ++ after) = text := by
  unfold strip stripEnd
  rw [List.append_assoc, List.dropWhile_append_of_pos blanksBefore]
  cases text with
  | nil =>
      have nothing : after.dropWhile isBlank = [] := by
        have dropped : (after ++ []).dropWhile isBlank = ([] : Text).dropWhile isBlank :=
          List.dropWhile_append_of_pos blanksAfter
        rw [List.append_nil] at dropped
        exact dropped
      simp [nothing]
  | cons ch rest =>
      have kept : (ch :: rest ++ after).dropWhile isBlank = ch :: rest ++ after :=
        dropWhile_eq_self_of_head head
      have reversedHead :
          ∀ other, (ch :: rest).reverse.head? = some other → isBlank other = false := by
        intro other isHead
        rw [List.head?_reverse] at isHead
        exact last other isHead
      rw [kept, List.reverse_append,
        List.dropWhile_append_of_pos
          (fun other member => blanksAfter other (by simpa using member)),
        dropWhile_eq_self_of_head reversedHead, List.reverse_reverse]

/-- A text that neither begins nor ends with a blank is trimmed already. -/
theorem strip_eq_self
    {text : Text}
    (head : ∀ ch, text.head? = some ch → isBlank ch = false)
    (last : ∀ ch, text.getLast? = some ch → isBlank ch = false) :
    strip text = text := by
  have surrounded : strip ([] ++ text ++ []) = text :=
    strip_surrounded (by simp) (by simp) head last
  simpa using surrounded

/-- A quote is no blank. -/
theorem isBlank_of_isQuote
    {mark : Char}
    (isMark : isQuote mark = true) :
    isBlank mark = false := by
  have cases : mark = '"' ∨ mark = '\'' := by
    unfold isQuote CharRole.of at isMark
    split at isMark <;> simp_all
  rcases cases with rfl | rfl <;> decide

/-! ## Literals and arrays -/

/-- Blanks around a quoted literal are trimmed. -/
theorem strip_surrounded_literal
    {before after : Text} {mark : Char}
    (isMark : isQuote mark = true)
    (body : Text)
    (blanksBefore : ∀ ch ∈ before, isBlank ch = true)
    (blanksAfter : ∀ ch ∈ after, isBlank ch = true) :
    strip (before ++ (mark :: body ++ [mark]) ++ after) = mark :: body ++ [mark] := by
  have notBlank : isBlank mark = false := isBlank_of_isQuote isMark
  apply strip_surrounded blanksBefore blanksAfter
  · intro ch isHead
    rw [List.cons_append, List.head?_cons, Option.some.injEq] at isHead
    rw [← isHead, notBlank]
  · intro ch isLast
    rw [List.getLast?_append, List.getLast?_singleton, Option.some_or, Option.some.injEq] at isLast
    rw [← isLast, notBlank]

/-- A quoted literal is trimmed already. -/
theorem strip_literal
    {mark : Char}
    (isMark : isQuote mark = true)
    (body : Text) :
    strip (mark :: body ++ [mark]) = mark :: body ++ [mark] := by
  have surrounded : strip ([] ++ (mark :: body ++ [mark]) ++ []) = mark :: body ++ [mark] :=
    strip_surrounded_literal isMark body (by simp) (by simp)
  rw [List.append_nil] at surrounded
  exact surrounded

/-- A literal in which the quote does not come again is unquoted to its body, if it has one, where
only punctuation follows. -/
theorem trimQuotes_literal_append
    {mark : Char} {body : Text}
    (isMark : isQuote mark = true)
    (notEmpty : body ≠ [])
    (unbroken : mark ∉ body)
    (trailing : Text) :
    trimQuotes (mark :: (body ++ mark :: trailing)) =
      if isPunctuation trailing then body else mark :: (body ++ mark :: trailing) := by
  have all : ∀ ch ∈ body, (ch != mark) = true := by
    intro ch member
    simp only [bne_iff_ne, ne_eq]
    rintro rfl
    exact unbroken member
  have taken : (body ++ mark :: trailing).takeWhile (fun ch => ch != mark) = body := by
    rw [List.takeWhile_append_of_pos all]
    simp
  have dropped :
      (body ++ mark :: trailing).dropWhile (fun ch => ch != mark) = mark :: trailing := by
    rw [List.dropWhile_append_of_pos all]
    simp
  cases body with
  | nil =>
      exact (notEmpty rfl).elim
  | cons ch rest =>
      unfold trimQuotes
      simp only [List.cons_append] at taken dropped ⊢
      rw [taken, dropped, if_pos isMark]

/-- A quoted literal is unquoted to its body. -/
theorem trimQuotes_literal
    {mark : Char} {body : Text}
    (isMark : isQuote mark = true)
    (notEmpty : body ≠ [])
    (unbroken : mark ∉ body) :
    trimQuotes (mark :: body ++ [mark]) = body :=
  trimQuotes_literal_append isMark notEmpty unbroken []

/-- A text that does not begin with a quote is left as it is. -/
theorem trimQuotes_of_head
    {text : Text}
    (head : ∀ ch, text.head? = some ch → isQuote ch = false) :
    trimQuotes text = text := by
  cases text with
  | nil =>
      rfl
  | cons ch rest =>
      simp [trimQuotes, head ch rfl]

/-- A text without the separator is one piece. -/
theorem splitOn_of_not_mem
    {separator : Char} {text : Text}
    (whole : separator ∉ text) :
    splitOn separator text = [text] := by
  induction text with
  | nil =>
      rfl
  | cons ch rest inductionHypothesis =>
      have different : ch ≠ separator := by
        rintro rfl
        exact whole List.mem_cons_self
      have restSplit := inductionHypothesis fun member => whole (List.mem_cons_of_mem ch member)
      simp [splitOn, different, restSplit]

/-- A separator ends the piece before it. -/
theorem splitOn_append
    {separator : Char} {text : Text}
    (whole : separator ∉ text)
    (rest : Text) :
    splitOn separator (text ++ separator :: rest) = text :: splitOn separator rest := by
  induction text with
  | nil =>
      simp [splitOn]
  | cons ch text inductionHypothesis =>
      have different : ch ≠ separator := by
        rintro rfl
        exact whole List.mem_cons_self
      have textSplit := inductionHypothesis fun member => whole (List.mem_cons_of_mem ch member)
      simp [splitOn, different, textSplit]

/-- Texts without the separator are the pieces of the text that they make up. -/
theorem splitOn_joinWith
    {separator : Char} {pieces : List Text}
    (notEmpty : pieces ≠ [])
    (whole : ∀ piece ∈ pieces, separator ∉ piece) :
    splitOn separator (joinWith [separator] pieces) = pieces := by
  induction pieces with
  | nil =>
      exact (notEmpty rfl).elim
  | cons piece pieces inductionHypothesis =>
      cases pieces with
      | nil =>
          exact splitOn_of_not_mem (whole piece List.mem_cons_self)
      | cons next pieces =>
          have later :=
            inductionHypothesis (by simp)
              fun other member => whole other (List.mem_cons_of_mem piece member)
          have shape :
              joinWith [separator] (piece :: next :: pieces) =
                piece ++ separator :: joinWith [separator] (next :: pieces) := by
            simp [joinWith]
          rw [shape, splitOn_append (whole piece List.mem_cons_self), later]

/-- An array literal is read up to its closing bracket. -/
theorem readArray_brackets
    {content : Text}
    (unbroken : ']' ∉ content)
    (rest : Text) :
    readArray ('[' :: content ++ ']' :: rest) = (arrayItems content, rest) := by
  have all : ∀ ch ∈ content, (ch != ']') = true := by
    intro ch member
    simp only [bne_iff_ne, ne_eq]
    rintro rfl
    exact unbroken member
  unfold readArray dropArrayStart
  simp only [List.cons_append]
  rw [List.takeWhile_append_of_pos all, List.dropWhile_append_of_pos all]
  simp

/-! ## Declarations -/

/-- The last word of a text that ends with a word and blanks after it. -/
theorem lastWord_surrounded
    {before word after : Text}
    (blanksBefore : ∀ ch ∈ before, isBlank ch = true)
    (blanksAfter : ∀ ch ∈ after, isBlank ch = true)
    (solid : ∀ ch ∈ word, isBlank ch = false)
    (notEmpty : word ≠ []) :
    lastWord (before ++ word ++ after) = word := by
  have reversedHead :
      ∀ ch, (word.reverse ++ before.reverse).head? = some ch → isBlank ch = false := by
    intro ch isHead
    cases reversed : word.reverse with
    | nil =>
        exact (notEmpty (List.reverse_eq_nil_iff.mp reversed)).elim
    | cons first rest =>
        rw [reversed, List.cons_append, List.head?_cons, Option.some.injEq] at isHead
        have member : ch ∈ word.reverse := by
          rw [reversed, isHead]
          exact List.mem_cons_self
        exact solid ch (List.mem_reverse.mp member)
  have taken :
      (word.reverse ++ before.reverse).takeWhile (fun ch => !isBlank ch) = word.reverse := by
    rw [List.takeWhile_append_of_pos (by simpa using solid)]
    have stops : before.reverse.takeWhile (fun ch => !isBlank ch) = [] := by
      cases reversed : before.reverse with
      | nil =>
          rfl
      | cons ch rest =>
          have member : ch ∈ before := by
            rw [← List.mem_reverse, reversed]
            exact List.mem_cons_self
          simp [blanksBefore ch member]
    rw [stops, List.append_nil]
  unfold lastWord
  rw [List.reverse_append, List.reverse_append,
    List.dropWhile_append_of_pos (by simpa using blanksAfter),
    dropWhile_eq_self_of_head reversedHead, taken, List.reverse_reverse]

/-- A declaration up to the equals sign declares the word before it. -/
theorem readDeclaration_equals
    {before word after : Text}
    (blanksBefore : ∀ ch ∈ before, isBlank ch = true ∧ isDeclarationChar ch = true)
    (blanksAfter : ∀ ch ∈ after, isBlank ch = true ∧ isDeclarationChar ch = true)
    (solid : ∀ ch ∈ word, isBlank ch = false ∧ isDeclarationChar ch = true)
    (notEmpty : word ≠ [])
    (rest : Text) :
    readDeclaration (before ++ word ++ after ++ '=' :: rest) = (word, '=' :: rest) := by
  have all : ∀ ch ∈ before ++ word ++ after, isDeclarationChar ch = true := by
    intro ch member
    simp only [List.mem_append] at member
    rcases member with (inBefore | inWord) | inAfter
    · exact (blanksBefore ch inBefore).2
    · exact (solid ch inWord).2
    · exact (blanksAfter ch inAfter).2
  have name : lastWord (before ++ word ++ after) = word :=
    lastWord_surrounded (fun ch member => (blanksBefore ch member).1)
      (fun ch member => (blanksAfter ch member).1) (fun ch member => (solid ch member).1) notEmpty
  unfold readDeclaration
  rw [List.dropWhile_append_of_pos all, List.takeWhile_append_of_pos all]
  rw [List.append_assoc] at name
  simp [isDeclarationChar, name]

end GradleScript
