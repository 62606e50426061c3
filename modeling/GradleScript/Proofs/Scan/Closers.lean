import GradleScript.Proofs.Scan.Enclosed
import Mathlib.Data.List.DropRight

namespace GradleScript

/-!
# Texts that are continued by closing braces

A text may be continued by line ends, and by closing braces each at the beginning of a line.  Then
it is scanned as before: a construct that ends in the text ends there, and one that the end of the
text has cut off ends with it, or at one of the line ends or braces.  Only a call that is kept and
an array literal would take what comes after them in.
-/

/-- Line ends, and closing braces each of which stands at the beginning of a line. -/
inductive Closers : Text → Prop where
  | nil : Closers []
  | line {rest : Text} (closers : Closers rest) : Closers ('\n' :: rest)
  | brace {rest : Text} (closers : Closers rest) : Closers ('\n' :: '}' :: rest)

/-- Whether a text is continued by the end of some closers, and by all of them where it is not
empty. -/
def ClosedBy (closers text other : Text) : Prop :=
  ∃ left,
    Closers left ∧ left <:+ closers ∧ other = text ++ left ∧ (text ≠ [] → left = closers)

/-- Whether what is left after a scan is continued as the scanned text is. -/
def ReadsClosers (scan : Text → Text) : Prop :=
  ∀ text closers, Closers closers → ClosedBy closers (scan text) (scan (text ++ closers))

namespace ClosedBy

variable {closers text other : Text}

/-- A text is continued by the closers that are written after it. -/
theorem append
    (isClosers : Closers closers)
    (text : Text) :
    ClosedBy closers text (text ++ closers) :=
  ⟨closers, isClosers, List.suffix_rfl, rfl, fun _ => rfl⟩

/-- Where nothing is left of a text, some closers may have been taken, too. -/
theorem of_nil
    {left : Text}
    (isClosers : Closers left)
    (inClosers : left <:+ closers) :
    ClosedBy closers [] left :=
  ⟨left, isClosers, inClosers, rfl, fun notEmpty => (notEmpty rfl).elim⟩

/-- A text that is not empty is continued by all of the closers. -/
theorem eq_append
    (closed : ClosedBy closers text other)
    (notEmpty : text ≠ []) :
    other = text ++ closers := by
  obtain ⟨left, _, _, rfl, whole⟩ := closed
  rw [whole notEmpty]

/-- A scan that reads the closers after a text keeps the text continued. -/
theorem map
    (closed : ClosedBy closers text other)
    (scan : Text → Text)
    (reads : ∀ left, Closers left → ClosedBy left (scan text) (scan (text ++ left)))
    (nothing : scan [] = []) :
    ClosedBy closers (scan text) (scan other) := by
  obtain ⟨left, isClosers, inClosers, rfl, whole⟩ := closed
  obtain ⟨later, laterClosers, inLeft, shape, laterWhole⟩ := reads left isClosers
  refine ⟨later, laterClosers, inLeft.trans inClosers, shape, ?_⟩
  intro notEmpty
  have textNotEmpty : text ≠ [] := by
    rintro rfl
    exact notEmpty nothing
  rw [laterWhole notEmpty, whole textNotEmpty]

/-- What is no line end is no beginning of the closers. -/
theorem head?_eq
    (closed : ClosedBy closers text other)
    {ch : Char}
    (notLineEnd : ch ≠ '\n')
    (first : other.head? = some ch) :
    text.head? = some ch := by
  obtain ⟨left, isClosers, _, rfl, _⟩ := closed
  cases text with
  | cons begin rest =>
      exact first
  | nil =>
      cases isClosers with
      | nil =>
          cases first
      | line | brace =>
          cases first
          exact (notLineEnd rfl).elim

end ClosedBy

namespace Closers

variable {closers : Text}

/-- What stops at line ends stops at closers. -/
theorem dropWhile_eq
    (isClosers : Closers closers)
    {holds : Char → Bool}
    (stops : holds '\n' = false) :
    closers.dropWhile holds = closers := by
  cases isClosers with
  | nil =>
      rfl
  | line | brace =>
      exact List.dropWhile_cons_of_neg (by simp [stops])

/-- A scan that stops at line ends takes none of the closers. -/
theorem takeWhile_eq
    (isClosers : Closers closers)
    {holds : Char → Bool}
    (stops : holds '\n' = false) :
    closers.takeWhile holds = [] := by
  cases isClosers with
  | nil =>
      rfl
  | line | brace =>
      exact List.takeWhile_cons_of_neg (by simp [stops])

/-- After the whitespace of closers comes nothing, or a brace and the closers after it. -/
theorem dropWhitespace_cases
    (isClosers : Closers closers) :
    dropWhitespace closers = [] ∨
      ∃ rest, dropWhitespace closers = '}' :: rest ∧ Closers rest ∧ rest <:+ closers := by
  induction isClosers with
  | nil =>
      exact .inl rfl
  | line _ inductionHypothesis =>
      rcases inductionHypothesis with nothing | ⟨rest, shape, isClosers, inClosers⟩
      · exact .inl nothing
      · exact .inr ⟨rest, shape, isClosers, inClosers.trans (List.suffix_cons _ _)⟩
  | @brace rest isClosers _ =>
      exact .inr ⟨rest, rfl, isClosers, ⟨['\n', '}'], rfl⟩⟩

/-- An end of closers is closers again, or begins with one of the braces. -/
theorem cases_of_suffix
    (isClosers : Closers closers)
    {left : Text}
    (inClosers : left <:+ closers) :
    Closers left ∨ ∃ rest, left = '}' :: rest ∧ Closers rest := by
  induction isClosers with
  | nil =>
      rw [List.suffix_nil.mp inClosers]
      exact .inl .nil
  | @line rest isClosers inductionHypothesis =>
      rcases List.suffix_cons_iff.mp inClosers with rfl | inRest
      · exact .inl (.line isClosers)
      · exact inductionHypothesis inRest
  | @brace rest isClosers inductionHypothesis =>
      rcases List.suffix_cons_iff.mp inClosers with rfl | inBrace
      · exact .inl (.brace isClosers)
      · rcases List.suffix_cons_iff.mp inBrace with rfl | inRest
        · exact .inr ⟨rest, rfl, isClosers⟩
        · exact inductionHypothesis inRest

/-- Closers are made of line ends and closing braces. -/
theorem eq_of_mem
    (isClosers : Closers closers)
    {ch : Char}
    (member : ch ∈ closers) :
    ch = '\n' ∨ ch = '}' := by
  induction isClosers with
  | nil =>
      cases member
  | line _ inductionHypothesis =>
      rcases List.mem_cons.mp member with isLineEnd | inRest
      · exact .inl isLineEnd
      · exact inductionHypothesis inRest
  | brace _ inductionHypothesis =>
      rcases List.mem_cons.mp member with isLineEnd | inBrace
      · exact .inl isLineEnd
      · rcases List.mem_cons.mp inBrace with isBrace | inRest
        · exact .inr isBrace
        · exact inductionHypothesis inRest

/-- Closers are made of line ends and closing braces. -/
theorem not_mem
    (isClosers : Closers closers)
    {ch : Char}
    (notLineEnd : ch ≠ '\n')
    (notBrace : ch ≠ '}') :
    ch ∉ closers := by
  intro member
  rcases isClosers.eq_of_mem member with isLineEnd | isBrace
  · exact notLineEnd isLineEnd
  · exact notBrace isBrace

/-! ## Comments -/

/-- No comment starts at the end of a text because of closers. -/
theorem commentAt?_append
    (isClosers : Closers closers)
    (ch : Char) (rest : Text) :
    commentAt? (ch :: rest ++ closers) = commentAt? (ch :: rest) := by
  cases rest with
  | cons second body =>
      rfl
  | nil =>
      have noneOpens : commentOpener? ch '\n' = none := by
        unfold commentOpener?
        split <;> simp_all
      cases isClosers with
      | nil =>
          rfl
      | line | brace =>
          exact noneOpens

end Closers

/-- What stops at line ends stops in the text or at the closers. -/
theorem readsClosers_dropWhile
    {holds : Char → Bool}
    (stops : holds '\n' = false) :
    ReadsClosers (List.dropWhile holds) := by
  intro text closers isClosers
  rw [List.dropWhile_append, isClosers.dropWhile_eq stops]
  split
  · next nothing =>
      rw [List.isEmpty_iff.mp nothing]
      exact .of_nil isClosers List.suffix_rfl
  · exact .append isClosers _

/-- A comment ends in a part of the text, or goes on after it. -/
theorem Comment.remaining_append
    (comment : Comment) (part following : Text) :
    comment.remaining (part ++ following) = comment.remaining part ++ following ∨
      comment.remaining part = [] ∧
        ∃ later : Comment, comment.remaining (part ++ following) = later.remaining following := by
  induction part generalizing comment with
  | nil =>
      exact .inr ⟨rfl, comment, rfl⟩
  | cons ch part inductionHypothesis =>
      rw [List.cons_append, remaining, remaining]
      by_cases ended : (comment.hear [ch]).1 = true
      · rw [if_pos ended, if_pos ended]
        exact .inl rfl
      · rw [if_neg ended, if_neg ended]
        exact inductionHypothesis _

/-! ## Whitespace -/

/-- The whitespace at the end of a text goes on among closers. -/
theorem dropWhitespace_append
    (text closers : Text) :
    dropWhitespace (text ++ closers) =
      if dropWhitespace text = [] then dropWhitespace closers
      else dropWhitespace text ++ closers := by
  unfold dropWhitespace
  rw [List.dropWhile_append]
  simp only [List.isEmpty_iff]

/-! ## Brackets -/

namespace Brackets

/-- Skipping among closers leaves closers, wherever in them it begins. -/
theorem remaining_closers
    {brackets : Brackets}
    (notLineEnd : brackets.closes '\n' = false)
    {closers : Text}
    (isClosers : Closers closers)
    (depth : Int) (quote : Quote) (previous : Option Char) :
    Closers (brackets.remaining depth quote previous closers) := by
  have noComment {ch : Char} (notSlash : ch ≠ '/') {quote : Quote} (rest : Text) :
      quote.isOpen = true ∨ commentAt? (ch :: rest) = none :=
    .inr (commentAt?_of_ne_slash notSlash rest)
  induction isClosers generalizing depth quote previous with
  | nil =>
      rw [remaining]
      exact .nil
  | @line rest isClosers inductionHypothesis =>
      rcases brackets.remaining_cons depth quote previous '\n' with
        ⟨isClosing, _⟩ | ⟨nextDepth, nextQuote, leadsOn⟩
      · cases notLineEnd.symm.trans isClosing
      · rw [leadsOn rest (noComment (by decide) rest)]
        exact inductionHypothesis _ _ _
  | @brace rest isClosers inductionHypothesis =>
      rcases brackets.remaining_cons depth quote previous '\n' with
        ⟨isClosing, _⟩ | ⟨nextDepth, nextQuote, leadsOn⟩
      · cases notLineEnd.symm.trans isClosing
      · rw [leadsOn _ (noComment (by decide) _)]
        rcases brackets.remaining_cons nextDepth nextQuote (some '\n') '}' with
          ⟨_, ends⟩ | ⟨laterDepth, laterQuote, leadsLater⟩
        · rw [ends rest (noComment (by decide) rest)]
          exact isClosers
        · rw [leadsLater rest (noComment (by decide) rest)]
          exact inductionHypothesis _ _ _

/-- Closers that are partly skipped end in closers. -/
theorem remaining_closers_of_suffix
    {brackets : Brackets}
    (notLineEnd : brackets.closes '\n' = false)
    {closers left : Text}
    (isClosers : Closers closers)
    (inClosers : left <:+ closers)
    (depth : Int) (quote : Quote) (previous : Option Char) :
    Closers (brackets.remaining depth quote previous left) := by
  rcases isClosers.cases_of_suffix inClosers with leftClosers | ⟨rest, rfl, restClosers⟩
  · exact remaining_closers notLineEnd leftClosers depth quote previous
  · have noComment : quote.isOpen = true ∨ commentAt? ('}' :: rest) = none :=
      .inr (commentAt?_of_ne_slash (by decide) rest)
    rcases brackets.remaining_cons depth quote previous '}' with
      ⟨_, ends⟩ | ⟨nextDepth, nextQuote, leadsOn⟩
    · rw [ends rest noComment]
      exact restClosers
    · rw [leadsOn rest noComment]
      exact remaining_closers notLineEnd restClosers _ _ _

/-- A bracketed part that closers continue ends in the text or among the closers. -/
theorem readsClosers_remaining
    {brackets : Brackets}
    (notLineEnd : brackets.closes '\n' = false)
    (depth : Int) (quote : Quote) (previous : Option Char) :
    ReadsClosers (brackets.remaining depth quote previous) := by
  intro text closers isClosers
  induction size : text.length using Nat.strongRecOn generalizing text depth quote previous with
  | ind length inductionHypothesis =>
    cases text with
    | nil =>
        have nothing : brackets.remaining depth quote previous [] = [] := by
          rw [remaining]
        rw [nothing]
        exact .of_nil (remaining_closers notLineEnd isClosers depth quote previous)
          (brackets.remaining_suffix depth quote previous closers)
    | cons ch rest =>
        rw [List.length_cons] at size
        by_cases outside : quote.isOpen = true ∨ commentAt? (ch :: rest) = none
        · have stillOutside :
              quote.isOpen = true ∨ commentAt? (ch :: (rest ++ closers)) = none := by
            rw [← List.cons_append, isClosers.commentAt?_append]
            exact outside
          rcases brackets.remaining_cons depth quote previous ch with
            ⟨_, ends⟩ | ⟨nextDepth, nextQuote, leadsOn⟩
          · rw [List.cons_append, ends rest outside, ends _ stillOutside]
            exact .append isClosers rest
          · rw [List.cons_append, leadsOn rest outside, leadsOn _ stillOutside]
            exact inductionHypothesis rest.length (by omega) _ _ _ rest rfl
        · obtain ⟨quoteClosed, starts⟩ := not_or.mp outside
          rw [Bool.not_eq_true] at quoteClosed
          cases rest with
          | nil =>
              exact (starts rfl).elim
          | cons second body =>
              obtain ⟨kind, opener⟩ := Option.ne_none_iff_exists'.mp starts
              rw [List.cons_append, List.cons_append,
                remaining_of_comment brackets depth previous quoteClosed opener,
                remaining_of_comment brackets depth previous quoteClosed opener]
              rcases (Comment.opened kind).remaining_append body closers with
                ends | ⟨nothing, later, goesOn⟩
              · have bound := ((Comment.opened kind).remaining_suffix body).length_le
                rw [List.length_cons] at size
                rw [ends]
                exact inductionHypothesis _ (by omega) _ _ _ _ rfl
              · have inClosers := later.remaining_suffix closers
                rw [nothing, goesOn, remaining]
                exact .of_nil
                  (remaining_closers_of_suffix notLineEnd isClosers inClosers depth quote none)
                  ((brackets.remaining_suffix _ _ _ _).trans inClosers)

/-- A part that begins with its bracket is skipped up to a place that closers continue. -/
theorem closedBy_after
    {brackets : Brackets} {opening : Char}
    (opens : brackets.opens opening = true)
    (visible : isWhitespace opening = false)
    (notLineEnd : brackets.closes '\n' = false)
    {closers : Text}
    (isClosers : Closers closers)
    (rest : Text) :
    ClosedBy closers (brackets.after (opening :: rest))
      (brackets.after (opening :: rest ++ closers)) := by
  rw [List.cons_append, after_of_opens opens visible, after_of_opens opens visible]
  exact readsClosers_remaining notLineEnd 0 {} none (opening :: rest) closers isClosers

/-- What follows the whitespace of a text, a bracketed part or not, is skipped up to a place that
closers continue. -/
theorem closedBy_after_of_visible
    (brackets : Brackets)
    (notLineEnd : brackets.closes '\n' = false)
    {text closers : Text}
    (isClosers : Closers closers)
    (visible : dropWhitespace text ≠ []) :
    ClosedBy closers (brackets.after text) (brackets.after (text ++ closers)) := by
  obtain ⟨ch, rest, shape⟩ := List.exists_cons_of_ne_nil visible
  have atPart : dropWhitespace (text ++ closers) = ch :: rest ++ closers := by
    rw [dropWhitespace_append, if_neg visible, shape]
  unfold after
  rw [shape, atPart]
  dsimp only [List.cons_append]
  by_cases opens : brackets.opens ch = true
  · rw [if_pos opens, if_pos opens]
    exact readsClosers_remaining notLineEnd 0 {} none (ch :: rest) closers isClosers
  · rw [if_neg opens, if_neg opens]
    exact .append isClosers (ch :: rest)

end Brackets

/-! ## Words -/

/-- Whether a word begins a text does not depend on what comes after the text, as long as that
does not go on with a word. -/
theorem startsWithWord_append_of_head
    {word following : Text}
    (ends : ∀ ch ∈ following.head?, isNameChar ch = false ∧ ch ∉ word)
    (text : Text) :
    startsWithWord word (text ++ following) = startsWithWord word text := by
  have notContinued : following.head?.any isNameChar = false := by
    cases first : following.head? with
    | none =>
        rfl
    | some ch =>
        exact (ends ch first).1
  unfold startsWithWord
  by_cases begins : word <+: text
  · obtain ⟨tail, rfl⟩ := begins
    rw [List.append_assoc, List.isPrefixOf_iff_prefix.mpr (List.prefix_append word _),
      List.isPrefixOf_iff_prefix.mpr (List.prefix_append word _), List.drop_left, List.drop_left]
    cases tail with
    | nil =>
        rw [List.nil_append, notContinued]
        rfl
    | cons ch tail =>
        rfl
  · have stillNot : ¬word <+: text ++ following := by
      intro beginsLater
      rcases List.prefix_or_prefix_of_prefix beginsLater (List.prefix_append text following) with
        inText | ⟨left, rfl⟩
      · exact begins inText
      · have leftBegins : left <+: following :=
          (List.prefix_append_right_inj text).mp beginsLater
        cases left with
        | nil =>
            rw [List.append_nil] at begins
            exact begins List.prefix_rfl
        | cons ch left =>
            obtain ⟨rest, rfl⟩ := leftBegins
            exact (ends ch rfl).2 (List.mem_append_right text List.mem_cons_self)
    have notPrefix (other : Text) (notBegins : ¬word <+: other) :
        word.isPrefixOf other = false := by
      rw [← Bool.not_eq_true, List.isPrefixOf_iff_prefix]
      exact notBegins
    rw [notPrefix _ begins, notPrefix _ stillNot]
    rfl

/-- A word begins a text, or a text with closers, alike. -/
theorem startsWithWord_closers
    {word closers : Text}
    (isClosers : Closers closers)
    (oneLine : '\n' ∉ word)
    (text : Text) :
    startsWithWord word (text ++ closers) = startsWithWord word text := by
  refine startsWithWord_append_of_head ?_ text
  intro ch isFirst
  cases isClosers with
  | nil =>
      cases isFirst
  | line | brace =>
      cases isFirst
      exact ⟨isNameChar_of_isWhitespace rfl, oneLine⟩

/-- No word begins among closers. -/
theorem startsWithWord_dropWhitespace_closers
    {word closers : Text}
    (isClosers : Closers closers)
    (notEmpty : word ≠ [])
    (noBrace : '}' ∉ word) :
    startsWithWord word (dropWhitespace closers) = false := by
  obtain ⟨ch, rest, rfl⟩ := List.exists_cons_of_ne_nil notEmpty
  unfold startsWithWord
  rcases isClosers.dropWhitespace_cases with nothing | ⟨left, shape, _, _⟩
  · rw [nothing]
    rfl
  · have notBrace : ch ≠ '}' := by
      rintro rfl
      exact noBrace List.mem_cons_self
    rw [shape]
    simp [List.isPrefixOf, notBrace]

end GradleScript
