import GradleScript.Proofs.Block.Scanning
import GradleScript.Scan.Conditional
import GradleScript.Scan.Declaration

namespace GradleScript

/-!
# Enclosed parts

A part of a text is enclosed by brackets when skipping from its opening bracket on takes exactly
the part, whatever comes after it.  It is enough to see this for one text that comes after it.

Conditionals and functions are made of enclosed parts with whitespace between them, so they are
skipped exactly, too.
-/

/-! ## Brackets -/

namespace Comment

/-- A comment that ends in a part of the text ends there whatever comes after the part. -/
theorem remaining_append_of_length_le
    {comment : Comment} {part following : Text}
    (notEmpty : following ≠ [])
    (ends : following.length ≤ (comment.remaining (part ++ following)).length) :
    ∃ left, left <:+ part ∧ ∀ other, comment.remaining (part ++ other) = left ++ other := by
  induction part generalizing comment with
  | nil =>
      obtain ⟨ch, rest, rfl⟩ := List.exists_cons_of_ne_nil notEmpty
      rw [List.nil_append, remaining] at ends
      split at ends
      · rw [List.length_cons] at ends
        omega
      · have bound := ((comment.hear [ch]).2.remaining_suffix rest).length_le
        rw [List.length_cons] at ends
        omega
  | cons ch part inductionHypothesis =>
      rw [List.cons_append, remaining] at ends
      by_cases ended : (comment.hear [ch]).1 = true
      · refine ⟨part, List.suffix_cons ch part, ?_⟩
        intro other
        rw [List.cons_append, remaining, if_pos ended]
      · rw [if_neg ended] at ends
        obtain ⟨left, inPart, exact⟩ := inductionHypothesis ends
        refine ⟨left, inPart.trans (List.suffix_cons ch part), ?_⟩
        intro other
        rw [List.cons_append, remaining, if_neg ended]
        exact exact other

end Comment

namespace Brackets

/-- Where no comment starts, a character counts as a part of a literal, as a bracket, or not at
all. -/
theorem remaining_of_noComment
    (brackets : Brackets) (depth : Int) {quote : Quote} (previous : Option Char)
    {ch : Char} {rest : Text}
    (outside : quote.isOpen = true ∨ commentAt? (ch :: rest) = none) :
    brackets.remaining depth quote previous (ch :: rest) =
      if quote.isOpen || isQuote ch then
        brackets.remaining depth (quote.next ch previous) (some ch) rest
      else if brackets.opens ch then
        brackets.remaining (depth + 1) quote (some ch) rest
      else if brackets.closes ch then
        if depth == 1 then
          rest
        else
          brackets.remaining (depth - 1) quote (some ch) rest
      else
        brackets.remaining depth quote (some ch) rest := by
  have noComment : (if quote.isOpen then none else afterComment? (ch :: rest)) = none := by
    rcases outside with isOpen | noneStarts
    · simp [isOpen]
    · simp [afterComment?, noneStarts]
  rw [remaining]
  split
  · next afterwards found =>
      cases noComment.symm.trans found
  · rfl

/-- A comment outside literals is passed over. -/
theorem remaining_of_comment
    (brackets : Brackets) (depth : Int) {quote : Quote} (previous : Option Char)
    {first second : Char} {kind : CommentKind}
    (quoteClosed : quote.isOpen = false)
    (starts : commentOpener? first second = some kind)
    (body : Text) :
    brackets.remaining depth quote previous (first :: second :: body) =
      brackets.remaining depth quote none ((Comment.opened kind).remaining body) := by
  have found :
      (if quote.isOpen then none else afterComment? (first :: second :: body)) =
        some ((Comment.opened kind).remaining body) := by
    simp [quoteClosed, afterComment?, commentAt?, starts]
  rw [remaining]
  split
  · next afterwards foundAfterwards =>
      cases found.symm.trans foundAfterwards
      rfl
  · next noneFound =>
      cases found.symm.trans noneFound

/-- Where no comment starts, a character either is the bracket that ends the skipping, or leads on
in the same way whatever comes after it. -/
theorem remaining_cons
    (brackets : Brackets) (depth : Int) (quote : Quote) (previous : Option Char) (ch : Char) :
    (brackets.closes ch = true ∧
        ∀ rest, quote.isOpen = true ∨ commentAt? (ch :: rest) = none →
          brackets.remaining depth quote previous (ch :: rest) = rest) ∨
      ∃ (nextDepth : Int) (nextQuote : Quote),
        ∀ rest, quote.isOpen = true ∨ commentAt? (ch :: rest) = none →
          brackets.remaining depth quote previous (ch :: rest) =
            brackets.remaining nextDepth nextQuote (some ch) rest := by
  by_cases inLiteral : (quote.isOpen || isQuote ch) = true
  · right
    refine ⟨depth, quote.next ch previous, ?_⟩
    intro rest outside
    rw [remaining_of_noComment brackets depth previous outside, if_pos inLiteral]
  · by_cases isOpening : brackets.opens ch = true
    · right
      refine ⟨depth + 1, quote, ?_⟩
      intro rest outside
      rw [remaining_of_noComment brackets depth previous outside, if_neg inLiteral,
        if_pos isOpening]
    · by_cases isClosing : brackets.closes ch = true
      · by_cases isLast : (depth == 1) = true
        · left
          refine ⟨isClosing, ?_⟩
          intro rest outside
          rw [remaining_of_noComment brackets depth previous outside, if_neg inLiteral,
            if_neg isOpening, if_pos isClosing, if_pos isLast]
        · right
          refine ⟨depth - 1, quote, ?_⟩
          intro rest outside
          rw [remaining_of_noComment brackets depth previous outside, if_neg inLiteral,
            if_neg isOpening, if_pos isClosing, if_neg isLast]
      · right
        refine ⟨depth, quote, ?_⟩
        intro rest outside
        rw [remaining_of_noComment brackets depth previous outside, if_neg inLiteral,
          if_neg isOpening, if_neg isClosing]

/-- Skipping takes something. -/
theorem remaining_ne_self
    (brackets : Brackets) (depth : Int) (quote : Quote) (previous : Option Char)
    {text : Text}
    (notEmpty : text ≠ []) :
    brackets.remaining depth quote previous text ≠ text := by
  obtain ⟨ch, rest, rfl⟩ := List.exists_cons_of_ne_nil notEmpty
  intro same
  have bound := (brackets.remaining_cons_suffix depth quote previous ch rest).length_le
  rw [same, List.length_cons] at bound
  omega

/-- A character that is all that is taken starts no comment. -/
theorem outside_of_takes
    (brackets : Brackets) (depth : Int) (quote : Quote) (previous : Option Char)
    {ch : Char} {rest : Text}
    (takesOne : brackets.remaining depth quote previous (ch :: rest) = rest) :
    quote.isOpen = true ∨ commentAt? (ch :: rest) = none := by
  by_cases quoteOpen : quote.isOpen = true
  · exact .inl quoteOpen
  · rw [Bool.not_eq_true] at quoteOpen
    right
    cases rest with
    | nil =>
        rfl
    | cons second body =>
        cases opener : commentOpener? ch second with
        | none =>
            exact opener
        | some kind =>
            rw [remaining_of_comment brackets depth previous quoteOpen opener] at takesOne
            have bound :=
              (brackets.remaining_suffix depth quote none
                ((Comment.opened kind).remaining body)).length_le
            have commentBound := ((Comment.opened kind).remaining_suffix body).length_le
            rw [takesOne, List.length_cons] at bound
            omega

/-- Skipping that takes exactly a part of the text takes it whatever comes after the part. -/
theorem remaining_append_of_eq
    {brackets : Brackets}
    (noSlash : brackets.closes '/' = false)
    {part following : Text}
    (partNotEmpty : part ≠ [])
    (notEmpty : following ≠ [])
    {depth : Int} {quote : Quote} {previous : Option Char}
    (takesPart : brackets.remaining depth quote previous (part ++ following) = following)
    (other : Text) :
    brackets.remaining depth quote previous (part ++ other) = other := by
  induction size : part.length using Nat.strongRecOn
    generalizing part depth quote previous with
  | ind length inductionHypothesis =>
    obtain ⟨ch, inner, rfl⟩ := List.exists_cons_of_ne_nil partNotEmpty
    rw [List.cons_append] at takesPart ⊢
    rw [List.length_cons] at size
    -- What is taken after the first character is a shorter part, and not an empty one.
    have later {nextDepth : Int} {nextQuote : Quote} {nextPrevious : Option Char} {left : Text}
        (shorter : left.length ≤ inner.length)
        (takesLeft :
          brackets.remaining nextDepth nextQuote nextPrevious (left ++ following) = following) :
        brackets.remaining nextDepth nextQuote nextPrevious (left ++ other) = other := by
      have leftNotEmpty : left ≠ [] := by
        rintro rfl
        exact brackets.remaining_ne_self _ _ _ notEmpty takesLeft
      exact inductionHypothesis left.length (by omega) leftNotEmpty takesLeft rfl
    cases inner with
    | nil =>
        rw [List.nil_append] at takesPart ⊢
        have outside : quote.isOpen = true ∨ commentAt? (ch :: following) = none :=
          outside_of_takes brackets depth quote previous takesPart
        rcases brackets.remaining_cons depth quote previous ch with
          ⟨isClosing, ends⟩ | ⟨nextDepth, nextQuote, leadsOn⟩
        · have notSlash : ch ≠ '/' := by
            rintro rfl
            cases isClosing.symm.trans noSlash
          exact ends other (.inr (commentAt?_of_ne_slash notSlash other))
        · rw [leadsOn following outside] at takesPart
          exact (brackets.remaining_ne_self _ _ _ notEmpty takesPart).elim
    | cons second body =>
        by_cases outside : quote.isOpen = true ∨ commentAt? (ch :: second :: body) = none
        · rcases brackets.remaining_cons depth quote previous ch with
            ⟨isClosing, ends⟩ | ⟨nextDepth, nextQuote, leadsOn⟩
          · rw [ends (second :: body ++ following) outside] at takesPart
            have lengths := congrArg List.length takesPart
            simp at lengths
            omega
          · rw [leadsOn (second :: body ++ following) outside] at takesPart
            rw [leadsOn (second :: body ++ other) outside]
            exact later (Nat.le_refl _) takesPart
        · obtain ⟨quoteClosed, starts⟩ := not_or.mp outside
          rw [Bool.not_eq_true] at quoteClosed
          obtain ⟨kind, opener⟩ := Option.ne_none_iff_exists'.mp starts
          rw [List.cons_append,
            remaining_of_comment brackets depth previous quoteClosed opener] at takesPart ⊢
          have ends :
              following.length ≤
                ((Comment.opened kind).remaining (body ++ following)).length := by
            have bound :=
              (brackets.remaining_suffix depth quote none
                ((Comment.opened kind).remaining (body ++ following))).length_le
            rw [takesPart] at bound
            exact bound
          obtain ⟨left, inBody, exact⟩ := Comment.remaining_append_of_length_le notEmpty ends
          rw [exact following] at takesPart
          rw [exact other]
          refine later ?_ takesPart
          exact Nat.le_trans inBody.length_le (Nat.le_succ _)

/-- Whether skipping from the opening bracket of a part takes exactly the part, whatever comes
after. -/
structure Encloses (brackets : Brackets) (part : Text) : Prop where
  opens : ∃ opening inner, part = opening :: inner ∧ brackets.opens opening = true
  exact : ∀ following, brackets.after (part ++ following) = following

/-- An opening bracket that is no whitespace is skipped from where it stands. -/
theorem after_of_opens
    {brackets : Brackets} {opening : Char}
    (opens : brackets.opens opening = true)
    (visible : isWhitespace opening = false)
    (text : Text) :
    brackets.after (opening :: text) = brackets.remaining 0 {} none (opening :: text) := by
  have atBracket : dropWhitespace (opening :: text) = opening :: text := by
    simp [dropWhitespace, visible]
  unfold after
  rw [atBracket]
  exact if_pos opens

/-- A part that is taken exactly before one text is enclosed. -/
theorem encloses_of_after
    {brackets : Brackets} {opening : Char} {inner : Text}
    (noSlash : brackets.closes '/' = false)
    (opens : brackets.opens opening = true)
    (visible : isWhitespace opening = false)
    (following : Text)
    (notEmpty : following ≠ [])
    (takesPart : brackets.after (opening :: inner ++ following) = following) :
    brackets.Encloses (opening :: inner) := by
  refine ⟨⟨opening, inner, rfl, opens⟩, ?_⟩
  intro other
  rw [List.cons_append, after_of_opens opens visible] at takesPart ⊢
  exact remaining_append_of_eq noSlash (List.cons_ne_nil opening inner) notEmpty takesPart other

/-- A part enclosed by parentheses begins with one. -/
theorem Encloses.exists_eq_parenthesis
    {part : Text}
    (encloses : parentheses.Encloses part) :
    ∃ inner, part = '(' :: inner := by
  obtain ⟨opening, inner, shape, opens⟩ := encloses.opens
  have isParenthesis : opening = '(' := by
    simpa [parentheses] using opens
  exact ⟨inner, isParenthesis ▸ shape⟩

/-- A part enclosed by braces begins with one. -/
theorem Encloses.exists_eq_brace
    {part : Text}
    (encloses : braces.Encloses part) :
    ∃ inner, part = '{' :: inner := by
  obtain ⟨opening, inner, shape, opens⟩ := encloses.opens
  have isBrace : opening = '{' := by
    simpa [braces] using opens
  exact ⟨inner, isBrace ▸ shape⟩

end Brackets

/-! ## Whitespace -/

/-- Separators and line ends, perhaps none. -/
structure Whitespace where
  text : Text
  isWhitespace : ∀ ch ∈ text, isWhitespace ch = true

/-- Whitespace is skipped with the whitespace after it. -/
theorem Whitespace.dropWhitespace_append
    (whitespace : Whitespace) (text : Text) :
    dropWhitespace (whitespace.text ++ text) = dropWhitespace text :=
  List.dropWhile_append_of_pos whitespace.isWhitespace

/-- Whitespace belongs to no name. -/
theorem isNameChar_of_isWhitespace
    {ch : Char}
    (blank : isWhitespace ch = true) :
    isNameChar ch = false := by
  unfold isWhitespace CharRole.of at blank
  split at blank <;> first | decide | cases blank

/-- A word that no name character continues begins a text. -/
theorem startsWithWord_append
    {word text : Text}
    (ends : ∀ ch ∈ text.head?, isNameChar ch = false) :
    startsWithWord word (word ++ text) = true := by
  unfold startsWithWord
  rw [List.drop_left, Bool.and_eq_true, Bool.not_eq_true']
  refine ⟨List.isPrefixOf_iff_prefix.mpr (List.prefix_append word text), ?_⟩
  cases first : text.head? with
  | none =>
      rfl
  | some ch =>
      exact ends ch first

/-! ## Constructs of enclosed parts -/

/-- An enclosed part with the whitespace before it. -/
structure Enclosed (brackets : Brackets) where
  gap : Whitespace
  part : Text
  encloses : brackets.Encloses part

namespace Enclosed

/-- An enclosed part as it is written. -/
def text {brackets : Brackets} (enclosed : Enclosed brackets) : Text :=
  enclosed.gap.text ++ enclosed.part

/-- An enclosed part is skipped with the whitespace before it, and nothing more is. -/
theorem after_text
    {brackets : Brackets} (enclosed : Enclosed brackets)
    (following : Text) :
    brackets.after (enclosed.text ++ following) = following := by
  have exact := enclosed.encloses.exact following
  unfold text
  unfold Brackets.after at exact ⊢
  rw [List.append_assoc, enclosed.gap.dropWhitespace_append]
  exact exact

/-- A braced body is a branch. -/
theorem afterBranch_text
    (branch : Enclosed braces)
    (following : Text) :
    afterBranch (branch.text ++ following) = following := by
  obtain ⟨inner, shape⟩ := branch.encloses.exists_eq_brace
  have exact := branch.encloses.exact following
  rw [shape] at exact
  unfold text afterBranch
  rw [List.append_assoc, branch.gap.dropWhitespace_append, shape]
  exact exact

/-- An enclosed part continues no name. -/
theorem head?_text
    {brackets : Brackets} (enclosed : Enclosed brackets)
    (bracketEnds : ∀ ch, brackets.opens ch = true → isNameChar ch = false)
    (following : Text) :
    ∀ ch ∈ (enclosed.text ++ following).head?, isNameChar ch = false := by
  obtain ⟨⟨gap, isGap⟩, part, ⟨opening, inner, rfl, opens⟩, _⟩ := enclosed
  intro ch isFirst
  cases gap with
  | nil =>
      cases isFirst
      exact bracketEnds _ opens
  | cons blank gap =>
      cases isFirst
      exact isNameChar_of_isWhitespace (isGap _ List.mem_cons_self)

end Enclosed

/-- A parenthesis belongs to no name. -/
theorem isNameChar_of_parentheses
    {ch : Char}
    (opens : parentheses.opens ch = true) :
    isNameChar ch = false := by
  have isParenthesis : ch = '(' := by
    simpa [parentheses] using opens
  rw [isParenthesis]
  decide

/-- A brace belongs to no name. -/
theorem isNameChar_of_braces
    {ch : Char}
    (opens : braces.opens ch = true) :
    isNameChar ch = false := by
  have isBrace : ch = '{' := by
    simpa [braces] using opens
  rw [isBrace]
  decide

/-- A condition and the braced branch that it guards. -/
structure Guarded where
  condition : Enclosed parentheses
  branch : Enclosed braces

namespace Guarded

/-- A guarded branch as it is written. -/
def text (guarded : Guarded) : Text :=
  guarded.condition.text ++ guarded.branch.text

/-- A condition and its braced branch are skipped, and nothing more is. -/
theorem afterGuarded_text
    (guarded : Guarded)
    (following : Text) :
    afterGuarded (guarded.text ++ following) = following := by
  unfold text afterGuarded
  rw [List.append_assoc, guarded.condition.after_text, guarded.branch.afterBranch_text]

end Guarded

/-- An `else if` with its guarded branch, and the whitespace before it. -/
structure Alternative where
  before : Whitespace
  between : Whitespace
  apart : between.text ≠ []
  guarded : Guarded

/-- A last `else` with its branch, and the whitespace before it. -/
structure Otherwise where
  before : Whitespace
  branch : Enclosed braces

/-- An `else if` as it is written. -/
def Alternative.text (alternative : Alternative) : Text :=
  alternative.before.text ++ elseWord ++ alternative.between.text ++ ifWord ++
    alternative.guarded.text

/-- A last `else` as it is written. -/
def Otherwise.text (otherwise : Otherwise) : Text :=
  otherwise.before.text ++ elseWord ++ otherwise.branch.text

/-- Where an `else` follows, it is skipped, and what comes after it decides what else is. -/
theorem afterAlternatives_of_else
    (before : Whitespace) {afterElse : Text}
    (ends : ∀ ch ∈ afterElse.head?, isNameChar ch = false) :
    afterAlternatives (before.text ++ (elseWord ++ afterElse)) =
      if startsWithWord ifWord (dropWhitespace afterElse) then
        afterAlternatives (afterGuarded ((dropWhitespace afterElse).drop ifWord.length))
      else
        afterBranch (dropWhitespace afterElse) := by
  have atElse :
      dropWhitespace (before.text ++ (elseWord ++ afterElse)) = elseWord ++ afterElse := by
    rw [before.dropWhitespace_append]
    rfl
  have elseFollows :
      startsWithWord elseWord (dropWhitespace (before.text ++ (elseWord ++ afterElse))) = true := by
    rw [atElse]
    exact startsWithWord_append ends
  rw [afterAlternatives, dif_pos elseFollows]
  dsimp only
  rw [atElse, List.drop_left]

/-- An `else if` is skipped before the alternatives that follow it. -/
theorem Alternative.afterAlternatives_text
    (alternative : Alternative)
    (following : Text) :
    afterAlternatives (alternative.text ++ following) = afterAlternatives following := by
  obtain ⟨before, between, apart, guarded⟩ := alternative
  have shape :
      (⟨before, between, apart, guarded⟩ : Alternative).text ++ following =
        before.text ++ (elseWord ++ (between.text ++ (ifWord ++ (guarded.text ++ following)))) := by
    simp [text, List.append_assoc]
  have elseEnds :
      ∀ ch ∈ (between.text ++ (ifWord ++ (guarded.text ++ following))).head?,
        isNameChar ch = false := by
    obtain ⟨blank, rest, betweenShape⟩ := List.exists_cons_of_ne_nil apart
    intro ch isFirst
    rw [betweenShape] at isFirst
    cases isFirst
    exact isNameChar_of_isWhitespace
      (between.isWhitespace _ (betweenShape ▸ List.mem_cons_self))
  have atIf :
      dropWhitespace (between.text ++ (ifWord ++ (guarded.text ++ following))) =
        ifWord ++ (guarded.text ++ following) := by
    rw [between.dropWhitespace_append]
    rfl
  have ifEnds : ∀ ch ∈ (guarded.text ++ following).head?, isNameChar ch = false := by
    unfold Guarded.text
    rw [List.append_assoc]
    exact guarded.condition.head?_text (fun _ => isNameChar_of_parentheses) _
  rw [shape, afterAlternatives_of_else before elseEnds, atIf,
    if_pos (startsWithWord_append ifEnds), List.drop_left, guarded.afterGuarded_text]

/-- A last `else` ends the alternatives. -/
theorem Otherwise.afterAlternatives_text
    (otherwise : Otherwise)
    (following : Text) :
    afterAlternatives (otherwise.text ++ following) = following := by
  obtain ⟨before, branch⟩ := otherwise
  have shape :
      (⟨before, branch⟩ : Otherwise).text ++ following =
        before.text ++ (elseWord ++ (branch.text ++ following)) := by
    simp [text, List.append_assoc]
  obtain ⟨inner, partShape⟩ := branch.encloses.exists_eq_brace
  have atBranch : dropWhitespace (branch.text ++ following) = branch.part ++ following := by
    unfold Enclosed.text
    rw [List.append_assoc, branch.gap.dropWhitespace_append, partShape]
    rfl
  have noIf : startsWithWord ifWord (branch.part ++ following) = false := by
    rw [partShape]
    rfl
  have exact : afterBranch (branch.part ++ following) = following :=
    (⟨⟨[], by simp⟩, branch.part, branch.encloses⟩ : Enclosed braces).afterBranch_text following
  rw [shape, afterAlternatives_of_else before
    (branch.head?_text (fun _ => isNameChar_of_braces) following), atBranch, noIf]
  exact exact

end GradleScript
