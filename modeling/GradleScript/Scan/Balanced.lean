import GradleScript.Scan.Comment
import GradleScript.Scan.Quote
import GradleScript.Scan.Separators

namespace GradleScript

/-!
# Balanced text

A call or a body that is not read is skipped from its opening bracket through the matching closing
one.  Brackets inside quoted literals and comments do not count; when the text ends first, all of
it is skipped.
-/

/-- A pair of brackets, by what opens and what closes it. -/
structure Brackets where
  opens : Char → Bool
  closes : Char → Bool

/-- The brackets of argument lists and conditions. -/
def parentheses : Brackets :=
  ⟨fun ch => ch == '(', fun ch => ch == ')'⟩

/-- The brackets of bodies. -/
def braces : Brackets :=
  ⟨fun ch => ch == '{', fun ch => ch == '}'⟩

namespace Brackets

/--
What is left after the bracket that brings the depth back to zero.  The quote state and the
previous character decide, as everywhere, which characters are inside literals; a comment leaves
no previous character behind.
-/
def remaining
    (brackets : Brackets)
    (depth : Int)
    (quote : Quote)
    (previous : Option Char) :
    Text → Text
  | [] =>
      []
  | ch :: rest =>
      match commentFound : (if quote.isOpen then none else afterComment? (ch :: rest)) with
      | some afterwards =>
          brackets.remaining depth quote none afterwards
      | none =>
          if quote.isOpen || isQuote ch then
            brackets.remaining depth (quote.next ch previous) (some ch) rest
          else if brackets.opens ch then
            brackets.remaining (depth + 1) quote (some ch) rest
          else if brackets.closes ch then
            if depth == 1 then
              rest
            else
              brackets.remaining (depth - 1) quote (some ch) rest
          else
            brackets.remaining depth quote (some ch) rest
termination_by text => text.length
decreasing_by
  all_goals try (simp only [List.length_cons]; omega)
  split at commentFound
  · simp at commentFound
  · exact (afterComment?_suffix commentFound).2

/-- A bracketed part ends somewhere in its text. -/
theorem remaining_suffix
    (brackets : Brackets)
    (depth : Int)
    (quote : Quote)
    (previous : Option Char)
    (text : Text) :
    brackets.remaining depth quote previous text <:+ text := by
  fun_induction brackets.remaining depth quote previous text with
  | case1 =>
      exact List.suffix_rfl
  | case2 _ quote _ ch rest afterwards commentFound inductionHypothesis =>
      split at commentFound
      · simp at commentFound
      · exact inductionHypothesis.trans (afterComment?_suffix commentFound).1
  | case3 _ _ _ ch rest _ _ inductionHypothesis =>
      exact inductionHypothesis.trans (List.suffix_cons ch rest)
  | case4 _ _ _ ch rest _ _ _ inductionHypothesis =>
      exact inductionHypothesis.trans (List.suffix_cons ch rest)
  | case5 _ _ _ ch rest =>
      exact List.suffix_cons ch rest
  | case6 _ _ _ ch rest _ _ _ _ _ inductionHypothesis =>
      exact inductionHypothesis.trans (List.suffix_cons ch rest)
  | case7 _ _ _ ch rest _ _ _ _ inductionHypothesis =>
      exact inductionHypothesis.trans (List.suffix_cons ch rest)

/-- What is left after a bracketed part, with whitespace before it; only the whitespace is skipped
when no bracket follows. -/
def after (brackets : Brackets) (text : Text) : Text :=
  match dropWhitespace text with
  | [] =>
      []
  | ch :: rest =>
      if brackets.opens ch then
        brackets.remaining 0 {} none (ch :: rest)
      else
        ch :: rest

/-- The bracketed part itself, which `after` leaves behind, from its opening bracket on. -/
def taken (brackets : Brackets) (text : Text) : Text :=
  takenFrom (dropWhitespace text) (brackets.after text)

/-- A bracketed part is skipped forward. -/
theorem after_suffix
    (brackets : Brackets)
    (text : Text) :
    brackets.after text <:+ text := by
  have blanksSkipped := dropWhitespace_suffix text
  unfold after
  split
  · exact List.nil_suffix
  · next ch rest shape =>
      rw [shape] at blanksSkipped
      split
      · exact (brackets.remaining_suffix 0 {} none (ch :: rest)).trans blanksSkipped
      · exact blanksSkipped

/-- Reading on inside brackets takes at least the next character. -/
theorem remaining_cons_suffix
    (brackets : Brackets)
    (depth : Int)
    (quote : Quote)
    (previous : Option Char)
    (ch : Char)
    (rest : Text) :
    brackets.remaining depth quote previous (ch :: rest) <:+ rest := by
  unfold remaining
  split
  · next afterwards commentFound =>
      split at commentFound
      · cases commentFound
      · have inText := afterComment?_suffix commentFound
        rcases List.suffix_cons_iff.mp inText.1 with whole | inRest
        · rw [whole] at inText
          exact absurd inText.2 (Nat.lt_irrefl _)
        · exact (brackets.remaining_suffix depth quote none afterwards).trans inRest
  · split
    · exact brackets.remaining_suffix _ _ _ rest
    · split
      · exact brackets.remaining_suffix _ _ _ rest
      · split
        · split
          · exact List.suffix_rfl
          · exact brackets.remaining_suffix _ _ _ rest
        · exact brackets.remaining_suffix _ _ _ rest

/-- Skipping from an opening bracket takes at least that bracket. -/
theorem after_cons_suffix
    (brackets : Brackets)
    (ch : Char)
    (rest : Text)
    (opening : brackets.opens ch = true)
    (visible : isWhitespace ch = false) :
    brackets.after (ch :: rest) <:+ rest := by
  have atBracket : dropWhitespace (ch :: rest) = ch :: rest := by
    simp [dropWhitespace, visible]
  unfold after
  rw [atBracket]
  simpa [opening] using brackets.remaining_cons_suffix 0 {} none ch rest

end Brackets

end GradleScript
