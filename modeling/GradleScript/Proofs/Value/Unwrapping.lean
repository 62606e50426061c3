import GradleScript.Proofs.Scan.Literals
import GradleScript.Proofs.Value.Written
import Mathlib.Data.List.TakeWhile

namespace GradleScript

/-!
# Unwrapping a literal

The quotes around the text of a value are trimmed when the text is a single literal.  Trimming looks
for the next equal quote, escaped or not, while a literal that is tracked goes on over an escaped
one.  So the two agree on literals in which the quote does not come again.  After a literal trimming
allows punctuation, and behind it one line end.
-/

/-! ## The shape of a tracked literal -/

/-- In a literal that goes on nothing changes. -/
theorem Quote.track_of_goesOn
    {mark : Char} {previous : Option Char} {text : Text}
    (goesOn :
      ∀ front, front <+: text → (track ⟨true, some mark⟩ previous front).isOpen = true) :
    track ⟨true, some mark⟩ previous text = ⟨true, some mark⟩ := by
  induction text generalizing previous with
  | nil =>
      rfl
  | cons ch text inductionHypothesis =>
      have stillOpen : (previous == some '\\' || ch != mark) = true := by
        have afterFirst := goesOn [ch] ⟨text, rfl⟩
        rw [track, next_inLiteral] at afterFirst
        exact afterFirst
      have later (front : Text) (isFront : front <+: text) :
          (track ⟨true, some mark⟩ (some ch) front).isOpen = true := by
        have here := goesOn (ch :: front) (List.cons_prefix_cons.mpr ⟨rfl, isFront⟩)
        rw [track, next_inLiteral, stillOpen] at here
        exact here
      rw [track, next_inLiteral, stillOpen]
      exact inductionHypothesis later

/-- A character after which a literal is open, and before which none was, is a quote. -/
theorem Quote.next_of_opens
    {quote : Quote} {ch : Char} {previous : Option Char}
    (isClosed : quote.isOpen = false)
    (opens : (quote.next ch previous).isOpen = true) :
    isQuote ch = true ∧ quote.next ch previous = ⟨true, some ch⟩ := by
  unfold next at opens ⊢
  rw [isClosed, if_neg Bool.false_ne_true] at opens ⊢
  split at opens
  · cases isClosed.symm.trans opens
  · next notEscaped =>
      split at opens
      · next isMark =>
          rw [if_neg notEscaped, if_pos isMark]
          exact ⟨isMark, rfl⟩
      · cases isClosed.symm.trans opens

/-- A text that is tracked as a single literal begins with a quote and ends with the same one. -/
theorem exists_marks_of_openInside
    {quote : Quote} {previous : Option Char} {literal : Text}
    (isClosed : quote.isOpen = false)
    (twoMarks : 2 ≤ literal.length)
    (openInside : quote.OpenInside previous literal)
    (closes : (quote.track previous literal).isOpen = false) :
    ∃ mark content, isQuote mark = true ∧ literal = mark :: (content ++ [mark]) := by
  cases literal with
  | nil =>
      cases twoMarks
  | cons mark rest =>
      rcases List.eq_nil_or_concat rest with rfl | ⟨content, last, rfl⟩
      · simp at twoMarks
      · rw [List.concat_eq_append] at openInside closes ⊢
        have opens : (quote.next mark previous).isOpen = true :=
          openInside [mark] ⟨content ++ [last], rfl⟩ nofun (by simp)
        obtain ⟨isMark, opened⟩ := Quote.next_of_opens isClosed opens
        have goesOn (front : Text) (isFront : front <+: content) :
            (Quote.track ⟨true, some mark⟩ (some mark) front).isOpen = true := by
          have inLiteral : mark :: front <+: mark :: (content ++ [last]) :=
            List.cons_prefix_cons.mpr ⟨rfl, isFront.trans (List.prefix_append content [last])⟩
          have notAll : mark :: front ≠ mark :: (content ++ [last]) := by
            intro isAll
            have shorter := isFront.length_le
            rw [List.cons.inj isAll |>.2, List.length_append, List.length_singleton] at shorter
            omega
          have stillOpen := openInside (mark :: front) inLiteral nofun notAll
          rw [Quote.track, opened] at stillOpen
          exact stillOpen
        have isLast : last = mark := by
          rw [Quote.track, opened, Quote.track_concat, Quote.track_of_goesOn goesOn,
            Quote.next_inLiteral, Bool.or_eq_false_iff] at closes
          simpa using closes.2
        exact ⟨mark, content, isMark, by rw [isLast]⟩

/-! ## What follows a literal -/

/-- Whether a text is statement punctuation only, perhaps with one line end behind it. -/
def EndsStatement (trailing : Text) : Prop :=
  ∃ punctuation : Text,
    (∀ ch ∈ punctuation, ch ∈ [',', ';', '\r', ' ']) ∧
      (trailing = punctuation ∨ trailing = punctuation ++ ['\n'])

/-- A literal may be followed by a comma, a semicolon, a carriage return or a space. -/
theorem isTrailingPunctuation_iff
    {ch : Char} :
    isTrailingPunctuation ch = true ↔ ch ∈ [',', ';', '\r', ' '] := by
  simp [isTrailingPunctuation, or_assoc]

/-- The characters that may follow a literal are the ones that end a statement. -/
theorem isPunctuation_iff
    {trailing : Text} :
    isPunctuation trailing = true ↔ EndsStatement trailing := by
  constructor
  · intro isAll
    have shape :=
      (List.takeWhile_append_dropWhile (p := isTrailingPunctuation) (l := trailing)).symm
    refine ⟨trailing.takeWhile isTrailingPunctuation, ?_, ?_⟩
    · intro ch member
      exact isTrailingPunctuation_iff.mp (List.mem_takeWhile_imp member)
    · unfold isPunctuation at isAll
      split at isAll
      · next nothing =>
          rw [nothing, List.append_nil] at shape
          exact .inl shape
      · next lineEnd =>
          rw [lineEnd] at shape
          exact .inr shape
      · cases isAll
  · rintro ⟨punctuation, all, rfl | rfl⟩
    · have dropped : trailing.dropWhile isTrailingPunctuation = [] :=
        List.dropWhile_eq_nil_iff.mpr fun ch member => isTrailingPunctuation_iff.mpr (all ch member)
      rw [isPunctuation, dropped]
    · have dropped : (punctuation ++ ['\n']).dropWhile isTrailingPunctuation = ['\n'] := by
        rw [List.dropWhile_append_of_pos fun ch member =>
          isTrailingPunctuation_iff.mpr (all ch member)]
        rfl
      simp [isPunctuation, dropped]

/-- A quote is no punctuation. -/
theorem not_endsStatement_of_isQuote
    {mark : Char} {trailing : Text}
    (isMark : isQuote mark = true)
    (member : mark ∈ trailing) :
    ¬ EndsStatement trailing := by
  rintro ⟨punctuation, all, shape⟩
  have notLineEnd : mark ≠ '\n' := ne_of_holds isMark (by decide)
  have inPunctuation : mark ∈ punctuation := by
    rcases shape with rfl | rfl
    · exact member
    · simpa [notLineEnd] using member
  have isPunctuationMark := all mark inPunctuation
  simp only [List.mem_cons, List.not_mem_nil, or_false] at isPunctuationMark
  rcases isPunctuationMark with rfl | rfl | rfl | rfl <;> cases isMark

/-! ## Trimming -/

/-- A literal without content is left as it is. -/
theorem trimQuotes_emptyLiteral
    (mark : Char) (trailing : Text) :
    trimQuotes (mark :: mark :: trailing) = mark :: mark :: trailing := by
  simp [trimQuotes]

/-- A literal in which its quote comes again is left as it is. -/
theorem trimQuotes_of_mem
    {mark : Char} {content : Text}
    (isMark : isQuote mark = true)
    (again : mark ∈ content)
    (trailing : Text) :
    trimQuotes (mark :: (content ++ mark :: trailing)) =
      mark :: (content ++ mark :: trailing) := by
  obtain ⟨before, later, rfl, unbroken⟩ := List.eq_append_cons_of_mem again
  rw [List.append_assoc, List.cons_append]
  -- What follows the second quote ends with the last one, and so it is more than punctuation.
  cases before with
  | nil =>
      exact trimQuotes_emptyLiteral mark _
  | cons ch before =>
      have noEnd : isPunctuation (later ++ mark :: trailing) ≠ true :=
        mt isPunctuation_iff.mp (not_endsStatement_of_isQuote isMark (by simp))
      rw [trimQuotes_literal_append isMark (List.cons_ne_nil ch before) unbroken, if_neg noEnd]

/--
A text that begins with a tracked literal is trimmed to the content of the literal if there is one,
if the quote does not come again in it, and if nothing but punctuation follows, perhaps with one
line end.  Any other such text is left as it is.
-/
theorem trimQuotes_of_tracked
    {quote : Quote} {previous : Option Char} {literal : Text}
    (isClosed : quote.isOpen = false)
    (twoMarks : 2 ≤ literal.length)
    (openInside : quote.OpenInside previous literal)
    (closes : (quote.track previous literal).isOpen = false)
    (trailing : Text) :
    let content := literal.tail.dropLast
    let unwraps :=
      3 ≤ literal.length ∧ (∀ mark, literal.head? = some mark → mark ∉ content) ∧
        EndsStatement trailing
    (unwraps → trimQuotes (literal ++ trailing) = content) ∧
      (¬ unwraps → trimQuotes (literal ++ trailing) = literal ++ trailing) := by
  obtain ⟨mark, inner, isMark, rfl⟩ :=
    exists_marks_of_openInside isClosed twoMarks openInside closes
  have contentShape : (mark :: (inner ++ [mark])).tail.dropLast = inner :=
    List.dropLast_concat
  have textShape :
      mark :: (inner ++ [mark]) ++ trailing = mark :: (inner ++ mark :: trailing) := by simp
  have long : 3 ≤ (mark :: (inner ++ [mark])).length ↔ inner ≠ [] := by
    rw [List.length_cons, List.length_append, List.length_singleton, ← List.length_pos_iff]
    omega
  have unbroken :
      (∀ other, (mark :: (inner ++ [mark])).head? = some other → other ∉ inner) ↔
        mark ∉ inner := by
    simp
  intro content unwraps
  have unwrapsIff : unwraps ↔ inner ≠ [] ∧ mark ∉ inner ∧ EndsStatement trailing := by
    change _ ∧ (∀ other, _ → other ∉ (mark :: (inner ++ [mark])).tail.dropLast) ∧ _ ↔ _
    rw [contentShape, long, unbroken]
  rw [unwrapsIff, textShape]
  constructor
  · rintro ⟨notEmpty, notAgain, ends⟩
    rw [trimQuotes_literal_append isMark notEmpty notAgain, if_pos (isPunctuation_iff.mpr ends)]
    exact contentShape.symm
  · intro notUnwrapped
    by_cases isEmpty : inner = []
    · subst isEmpty
      exact trimQuotes_emptyLiteral mark trailing
    · by_cases again : mark ∈ inner
      · exact trimQuotes_of_mem isMark again trailing
      · have noEnd : ¬ EndsStatement trailing := fun ends => notUnwrapped ⟨isEmpty, again, ends⟩
        rw [trimQuotes_literal_append isMark isEmpty again,
          if_neg (mt isPunctuation_iff.mp noEnd)]

/-- A literal with another quote and an escape in it, before punctuation and before more text. -/
theorem trimQuotes_of_tracked_otherQuote :
    let literal := "'a\"\\t'".toList
    Quote.closed.OpenInside (some ' ') literal ∧
      (Quote.closed.track (some ' ') literal).isOpen = false ∧
      trimQuotes (literal ++ ", ;\r".toList) = "a\"\\t".toList ∧
      trimQuotes (literal ++ " + b".toList) = "'a\"\\t' + b".toList := by
  intro literal
  have openInside : Quote.closed.OpenInside (some ' ') literal := by decide
  have closes : (Quote.closed.track (some ' ') literal).isOpen = false := by decide
  have trims (trailing : Text) :=
    trimQuotes_of_tracked rfl (by decide) openInside closes trailing
  have ends : EndsStatement ", ;\r".toList := ⟨_, by decide, .inl rfl⟩
  have goesOn : ¬ EndsStatement " + b".toList := fun ends =>
    absurd (isPunctuation_iff.mpr ends) (by decide)
  have unbroken (mark : Char) (isHead : literal.head? = some mark) :
      mark ∉ literal.tail.dropLast := by
    cases isHead
    decide
  exact
    ⟨openInside, closes, (trims _).1 ⟨by decide, unbroken, ends⟩,
      (trims _).2 fun unwraps => goesOn unwraps.2.2⟩

/-- An escaped quote in a literal keeps its quotes from being trimmed, and a line end behind a
literal does not. -/
theorem trimQuotes_escapedQuote_lineEnd :
    let literal := "\"a\\\"b\"".toList
    let other := "\"a\"".toList
    (Quote.closed.OpenInside none literal ∧ (Quote.closed.track none literal).isOpen = false ∧
        trimQuotes literal ≠ literal.tail.dropLast) ∧
      (Quote.closed.OpenInside none other ∧ (Quote.closed.track none other).isOpen = false ∧
        trimQuotes (other ++ ['\n']) ≠ other ++ ['\n']) := by
  exact ⟨⟨by decide, by decide, by decide⟩, by decide, by decide, by decide⟩

end GradleScript
