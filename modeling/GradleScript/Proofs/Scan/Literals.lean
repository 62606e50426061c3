import GradleScript.Proofs.Scan.Enclosed

namespace GradleScript

/-!
# Where a literal ends

A literal is tracked character by character, and all that is remembered of it is the character
before.  So a quote in it is escaped by any backslash right before it, also by one that is escaped
itself.  A literal written with escapes ends at its last quote exactly when its last escape is not
that of a backslash; otherwise it runs on, and so does the skipping of a call around it.
-/

/-! ## Tracking several characters -/

namespace Quote

/-- The state after some characters, each of which is the previous one of the next. -/
def track (quote : Quote) (previous : Option Char) : Text → Quote
  | [] =>
      quote
  | ch :: rest =>
      (quote.next ch previous).track (some ch) rest

/-- Tracking a text to its last character is tracking what is before the character first. -/
theorem track_concat
    (quote : Quote) (previous : Option Char) (front : Text) (ch : Char) :
    quote.track previous (front ++ [ch]) =
      (quote.track previous front).next ch (front.getLast?.or previous) := by
  induction front generalizing quote previous with
  | nil =>
      rfl
  | cons first front inductionHypothesis =>
      rw [List.cons_append, track, inductionHypothesis, track, List.getLast?_cons]
      cases front.getLast? <;> rfl

/-- A quote that is not escaped opens a literal. -/
theorem next_opening
    {quote : Quote} {mark : Char} {previous : Option Char}
    (isMark : isQuote mark = true)
    (isClosed : quote.isOpen = false)
    (unescaped : previous ≠ some '\\') :
    quote.next mark previous = ⟨true, some mark⟩ := by
  simp [next, isMark, isClosed, unescaped]

/-- In a literal, the quote that opened it closes it unless a backslash is right before. -/
theorem next_inLiteral
    (mark ch : Char) (previous : Option Char) :
    next ⟨true, some mark⟩ ch previous =
      ⟨previous == some '\\' || ch != mark, some mark⟩ := by
  unfold next
  by_cases isEscaped : previous = some '\\'
  · simp [isEscaped]
  · by_cases closes : mark = ch
    · simp [isEscaped, closes]
    · simp [isEscaped, closes, Ne.symm closes]

end Quote

/-- Whether every quote of a kind in a text has a backslash right before it, where a character may
come before the text. -/
def MarksEscaped (mark : Char) : Option Char → Text → Prop
  | _, [] =>
      True
  | previous, ch :: rest =>
      (ch = mark → previous = some '\\') ∧ MarksEscaped mark (some ch) rest

/-- A text whose quotes are all escaped begins with texts whose quotes are all escaped. -/
theorem MarksEscaped.of_prefix
    {mark : Char} {previous : Option Char} {front text : Text}
    (escaped : MarksEscaped mark previous text)
    (isFront : front <+: text) :
    MarksEscaped mark previous front := by
  induction front generalizing previous text with
  | nil =>
      trivial
  | cons ch front inductionHypothesis =>
      obtain ⟨later, rfl⟩ := isFront
      exact ⟨escaped.1, inductionHypothesis escaped.2 (List.prefix_append front later)⟩

/-- A literal goes on while its quotes are escaped. -/
theorem MarksEscaped.track
    {mark : Char} {previous : Option Char} {text : Text}
    (escaped : MarksEscaped mark previous text) :
    Quote.track ⟨true, some mark⟩ previous text = ⟨true, some mark⟩ := by
  induction text generalizing previous with
  | nil =>
      rfl
  | cons ch text inductionHypothesis =>
      have goesOn : (previous == some '\\' || ch != mark) = true := by
        rw [Bool.or_eq_true, beq_iff_eq, bne_iff_ne]
        exact (Classical.em (ch = mark)).imp escaped.1 id
      rw [Quote.track, Quote.next_inLiteral, goesOn]
      exact inductionHypothesis escaped.2

/-! ## Literals with escapes -/

/-- What the content of a literal is made of. -/
inductive LiteralPart where
  | plain (ch : Char)
  /-- A backslash and the character that it escapes. -/
  | escape (ch : Char)
  deriving Repr, DecidableEq

namespace LiteralPart

/-- A part as it is written. -/
def text : LiteralPart → Text
  | .plain ch => [ch]
  | .escape ch => ['\\', ch]

/-- Whether a part may stand between two quotes: what stands there plainly is neither a backslash
nor such a quote, and anything may be escaped. -/
def Fits (mark : Char) : LiteralPart → Prop
  | .plain ch => ch ≠ mark ∧ ch ≠ '\\'
  | .escape _ => True

variable {mark : Char} {parts : List LiteralPart}

/-- The quotes between those of a literal are escaped. -/
theorem marksEscaped
    (isMark : isQuote mark = true)
    (fits : ∀ part ∈ parts, part.Fits mark)
    (previous : Option Char) :
    MarksEscaped mark previous (parts.flatMap text) := by
  have notBackslash : '\\' ≠ mark := (ne_of_holds isMark (by decide)).symm
  induction parts generalizing previous with
  | nil =>
      trivial
  | cons part parts inductionHypothesis =>
      rw [List.forall_mem_cons] at fits
      have later := inductionHypothesis fits.2
      cases part with
      | plain ch =>
          exact ⟨fun isMark => (fits.1.1 isMark).elim, later (some ch)⟩
      | escape ch =>
          exact ⟨fun isMark => (notBackslash isMark).elim, fun _ => rfl, later (some ch)⟩

/-- The last character before the closing quote is a backslash where the last part is an escaped
one. -/
theorem getLast?_text_eq_backslash_iff
    (fits : ∀ part ∈ parts, part.Fits mark) :
    (parts.flatMap text).getLast? = some '\\' ↔ parts.getLast? = some (.escape '\\') := by
  rcases List.eq_nil_or_concat parts with rfl | ⟨earlier, part, rfl⟩
  · simp
  · rw [List.concat_eq_append] at fits ⊢
    have partFits : part.Fits mark := fits part (by simp)
    cases part with
    | plain ch =>
        simpa [text] using partFits.2
    | escape ch =>
        simp [text]

end LiteralPart

/-! ## Literals that are tracked -/

/-- Whether a literal is open at every place between its first and its last character. -/
def Quote.OpenInside (quote : Quote) (previous : Option Char) (literal : Text) : Prop :=
  ∀ front, front <+: literal → front ≠ [] → front ≠ literal →
    (quote.track previous front).isOpen = true

section

variable {quote : Quote} {previous : Option Char} {literal : Text} {mark : Char} {content : Text}

/-- A literal is open inside where it is open after every part of it that ends before its last
character. -/
theorem openInside_iff_take :
    quote.OpenInside previous literal ↔
      ∀ stop < literal.length, 0 < stop →
        (quote.track previous (literal.take stop)).isOpen = true := by
  constructor
  · intro openInside stop inside positive
    have notEmpty : literal.take stop ≠ [] := by
      rw [← List.length_pos_iff, List.length_take]
      omega
    have notAll : literal.take stop ≠ literal := by
      intro isAll
      have shorter := congrArg List.length isAll
      rw [List.length_take] at shorter
      omega
    exact openInside _ (List.take_prefix stop literal) notEmpty notAll
  · intro openAt front isFront notEmpty notAll
    have shape := List.prefix_iff_eq_take.mp isFront
    rw [shape]
    have shorter : front.length ≠ literal.length := fun same => notAll (isFront.eq_of_length same)
    exact openAt _ (Nat.lt_of_le_of_ne isFront.length_le shorter) (List.length_pos_iff.mpr notEmpty)

instance : Decidable (quote.OpenInside previous literal) :=
  decidable_of_iff _ openInside_iff_take.symm

/-- A literal whose inner quotes are escaped is open inside. -/
theorem openInside_of_marksEscaped
    (isMark : isQuote mark = true)
    (isClosed : quote.isOpen = false)
    (unescaped : previous ≠ some '\\')
    (escaped : MarksEscaped mark (some mark) content) :
    quote.OpenInside previous (mark :: (content ++ [mark])) := by
  intro front isFront notEmpty notAll
  cases front with
  | nil =>
      exact (notEmpty rfl).elim
  | cons ch inner =>
      obtain ⟨rfl, inFront⟩ := List.cons_prefix_cons.mp isFront
      have isInner : inner <+: content :=
        (List.prefix_concat_iff.mp inFront).resolve_left fun isAll => notAll (congrArg _ isAll)
      rw [Quote.track, Quote.next_opening isMark isClosed unescaped,
        (escaped.of_prefix isInner).track]

/-- A literal whose inner quotes are escaped is closed by its last quote unless a backslash is right
before. -/
theorem isOpen_track_literal_eq_false_iff
    (isMark : isQuote mark = true)
    (isClosed : quote.isOpen = false)
    (unescaped : previous ≠ some '\\')
    (escaped : MarksEscaped mark (some mark) content) :
    (quote.track previous (mark :: (content ++ [mark]))).isOpen = false ↔
      content.getLast? ≠ some '\\' := by
  have notBackslash : mark ≠ '\\' := ne_of_holds isMark (by decide)
  rw [Quote.track, Quote.next_opening isMark isClosed unescaped, Quote.track_concat,
    escaped.track, Quote.next_inLiteral]
  cases content.getLast? with
  | none =>
      simpa using notBackslash
  | some last =>
      simp

end

/-! ## Skipping a literal -/

/-- A literal inside brackets is skipped as far as it is tracked. -/
theorem Brackets.remaining_track
    (brackets : Brackets) (depth : Int) {quote : Quote} {previous : Option Char} {part : Text}
    (inLiteral :
      ∀ front ch, front ++ [ch] <+: part →
        (quote.track previous front).isOpen = true ∨ isQuote ch = true)
    (rest : Text) :
    brackets.remaining depth quote previous (part ++ rest) =
      brackets.remaining depth (quote.track previous part) (part.getLast?.or previous) rest := by
  induction part generalizing quote previous with
  | nil =>
      rfl
  | cons ch part inductionHypothesis =>
      have here : quote.isOpen = true ∨ isQuote ch = true := inLiteral [] ch ⟨part, rfl⟩
      have outside : quote.isOpen = true ∨ commentAt? (ch :: (part ++ rest)) = none :=
        here.imp_right fun isMark =>
          commentAt?_of_ne_slash (ne_of_holds isMark (by decide)) (part ++ rest)
      have later (front : Text) (next : Char) (isFront : front ++ [next] <+: part) :
          ((quote.next ch previous).track (some ch) front).isOpen = true ∨
            isQuote next = true :=
        inLiteral (ch :: front) next (List.cons_prefix_cons.mpr ⟨rfl, isFront⟩)
      rw [List.cons_append, remaining_of_noComment brackets depth previous outside,
        if_pos (by rw [Bool.or_eq_true]; exact here), inductionHypothesis later, Quote.track,
        List.getLast?_cons]
      cases part.getLast? <;> rfl

/-- A call of nothing but a literal is skipped exactly when the literal is closed at its end; if it
is not, more is taken, where there is more. -/
theorem after_call_literal_iff
    {mark : Char} {content : Text}
    (isMark : isQuote mark = true)
    (openInside : Quote.closed.OpenInside (some '(') (mark :: (content ++ [mark])))
    (rest : Text) :
    parentheses.after ('(' :: (mark :: (content ++ [mark]) ++ ')' :: rest)) = rest ↔
      rest = [] ∨
        (Quote.closed.track (some '(') (mark :: (content ++ [mark]))).isOpen = false := by
  generalize shape : mark :: (content ++ [mark]) = literal at openInside ⊢
  have inLiteral (front : Text) (ch : Char) (isFront : front ++ [ch] <+: literal) :
      (Quote.closed.track (some '(') front).isOpen = true ∨ isQuote ch = true := by
    cases front with
    | nil =>
        subst shape
        obtain ⟨rfl, _⟩ := List.cons_prefix_cons.mp isFront
        exact .inr isMark
    | cons first front =>
        refine .inl (openInside _ ((List.prefix_append _ _).trans isFront) nofun ?_)
        intro isAll
        have shorter := isFront.length_le
        rw [isAll, List.length_append, List.length_singleton] at shorter
        omega
  have first :
      parentheses.after ('(' :: (literal ++ ')' :: rest)) =
        parentheses.remaining 1 Quote.closed (some '(') (literal ++ ')' :: rest) :=
    parentheses.remaining_of_noComment 0 none
      (.inr (commentAt?_of_ne_slash (by decide) (literal ++ ')' :: rest)))
  have noComment :
      (Quote.closed.track (some '(') literal).isOpen = true ∨ commentAt? (')' :: rest) = none :=
    .inr (commentAt?_of_ne_slash (by decide) rest)
  rw [first, parentheses.remaining_track 1 inLiteral,
    parentheses.remaining_of_noComment 1 _ noComment]
  cases isOpen : (Quote.closed.track (some '(') literal).isOpen with
  | false =>
      simp [parentheses, isQuote, CharRole.of]
  | true =>
      rw [Bool.true_or, if_pos rfl]
      cases rest with
      | nil =>
          simp [Brackets.remaining]
      | cons ch rest =>
          -- The literal is open behind the parenthesis, and at least one character is taken there.
          generalize (Quote.closed.track (some '(') literal).next ')' _ = quote
          have shorter :=
            (parentheses.remaining_cons_suffix 1 quote (some ')') ch rest).length_le
          have notAll :
              parentheses.remaining 1 quote (some ')') (ch :: rest) ≠ ch :: rest := by
            intro same
            rw [same, List.length_cons] at shorter
            omega
          simpa using notAll

/--
A literal is open at every place between its first quote and its last one.  The last one closes it,
and a call around it is skipped exactly, unless its last part is an escaped backslash: then the
literal runs on over the parenthesis that closes the call.
-/
theorem literal_ends_at_mark
    {mark : Char} {parts : List LiteralPart} {quote : Quote} {previous : Option Char}
    (isMark : isQuote mark = true)
    (fits : ∀ part ∈ parts, part.Fits mark)
    (isClosed : quote.isOpen = false)
    (unescaped : previous ≠ some '\\')
    (rest : Text) :
    let literal := mark :: (parts.flatMap LiteralPart.text ++ [mark])
    quote.OpenInside previous literal ∧
      ((quote.track previous literal).isOpen = false ↔
        parts.getLast? ≠ some (.escape '\\')) ∧
      (parentheses.after ('(' :: (literal ++ ')' :: rest)) = rest ↔
        rest = [] ∨ parts.getLast? ≠ some (.escape '\\')) := by
  intro literal
  have escaped := LiteralPart.marksEscaped isMark fits (some mark)
  have lastPart := not_congr (LiteralPart.getLast?_text_eq_backslash_iff fits)
  have closes {quote : Quote} {previous : Option Char}
      (isClosed : quote.isOpen = false) (unescaped : previous ≠ some '\\') :
      (quote.track previous literal).isOpen = false ↔
        parts.getLast? ≠ some (.escape '\\') :=
    (isOpen_track_literal_eq_false_iff isMark isClosed unescaped escaped).trans lastPart
  have inCall : Quote.closed.OpenInside (some '(') literal :=
    openInside_of_marksEscaped isMark rfl (by decide) escaped
  refine ⟨openInside_of_marksEscaped isMark isClosed unescaped escaped,
    closes isClosed unescaped, ?_⟩
  rw [after_call_literal_iff isMark inCall, closes rfl (by decide)]

/-- A literal with an escaped backslash before an escaped quote. -/
theorem literal_ends_at_mark_escapedQuote :
    let parts : List LiteralPart := [.plain 'a', .escape '\\', .escape '"']
    let literal := '"' :: (parts.flatMap LiteralPart.text ++ ['"'])
    literal = "\"a\\\\\\\"\"".toList ∧
      Quote.closed.OpenInside (some ' ') literal ∧
      (Quote.closed.track (some ' ') literal).isOpen = false ∧
      parentheses.after ('(' :: (literal ++ ')' :: " b".toList)) = " b".toList := by
  intro parts literal
  have isMark : isQuote '"' = true := by decide
  have fits : ∀ part ∈ parts, part.Fits '"' := by
    simp [parts, LiteralPart.Fits]
  obtain ⟨openInside, closes, skips⟩ :=
    @literal_ends_at_mark '"' parts .closed (some ' ') isMark fits rfl (by decide) " b".toList
  exact ⟨by decide, openInside, closes.mpr (by decide), skips.mpr (.inr (by decide))⟩

/-- An escaped backslash at the end of a literal escapes the closing quote: the literal stays open,
and with it everything to the end of the text is skipped. -/
theorem literal_runsOn_escapedBackslash :
    let parts : List LiteralPart := [.escape '\\']
    let literal := '"' :: (parts.flatMap LiteralPart.text ++ ['"'])
    (∀ part ∈ parts, part.Fits '"') ∧
      literal = "\"\\\\\"".toList ∧
      (Quote.closed.track (some '(') literal).isOpen = true ∧
      parentheses.after ('(' :: (literal ++ ')' :: " b".toList)) = [] := by
  exact ⟨by simp [LiteralPart.Fits], by decide, by decide, by decide +kernel⟩

end GradleScript
