import GradleScript.Proofs.Scan.Returns

namespace GradleScript

/-!
# Texts that begin with the same front

What is scanned within a front of a text is scanned alike whatever comes after the front.  Where the
front ends at a slash or a closing brace in one text, and at a line end or a closing brace in
another one, a scan that leaves the whole end of the first text leaves the whole end of the other
one, too.  The same holds where the front consists of whole lines, whatever comes after them in the
other text.  Only a scan that looks ahead over whitespace may go further there: for an alternative
of a conditional, or for the body of a function.
-/

/-- Whether a scan of a front leaves a part of it, whatever comes after the front. -/
def EndsWithin (scan : Text → Text) (front : Text) : Prop :=
  ∃ left, left <:+ front ∧ ∀ following, scan (front ++ following) = left ++ following

/-- Whether two texts are two ends with the same front before them. -/
def SameFront (tail otherTail text other : Text) : Prop :=
  ∃ front, text = front ++ tail ∧ other = front ++ otherTail

/-- Whether what follows the whitespace of a text goes on with a conditional, or with a
function. -/
def Continues (text : Text) : Prop :=
  startsWithWord elseWord (dropWhitespace text) = true ∨ (dropWhitespace text).head? = some '{'

/-- A closing brace goes on with nothing. -/
theorem not_continues_brace (rest : Text) : ¬Continues ('}' :: rest) := by
  have visible : dropWhitespace ('}' :: rest) = '}' :: rest :=
    List.dropWhile_cons_of_neg (by decide)
  have noElse : startsWithWord elseWord ('}' :: rest) = false := rfl
  unfold Continues
  rw [visible, noElse]
  simp

/-- Whether a scan has looked ahead into an end of a text and taken something of it. -/
def Overtakes (tail left : Text) : Prop :=
  Continues tail ∧ left.length < tail.length

/-- Two ends that are told apart, after the same lines, by what looks ahead over whitespace
alone. -/
structure Seam (tail otherTail lines : Text) : Prop where
  stops : ∃ rest, tail = '/' :: rest ∨ tail = '}' :: rest
  otherStops :
    (∃ rest, otherTail = '\n' :: rest ∨ otherTail = '}' :: rest) ∨ lines.getLast? = some '\n'

namespace EndsWithin

variable {scan following : Text → Text} {front : Text}

/-- A scan that ends within a front leaves the same part of it before both ends. -/
theorem sameFront
    (within : EndsWithin scan front)
    (tail otherTail : Text) :
    SameFront tail otherTail (scan (front ++ tail)) (scan (front ++ otherTail)) := by
  obtain ⟨left, _, leaves⟩ := within
  exact ⟨left, leaves tail, leaves otherTail⟩

/-- A scan that goes on with what another one leaves of a front ends within it, too. -/
theorem comp
    (within : EndsWithin scan front)
    (goesOn : ∀ left, left <:+ front → (∀ other, scan (front ++ other) = left ++ other) →
      EndsWithin following left) :
    EndsWithin (fun text => following (scan text)) front := by
  obtain ⟨left, inFront, leaves⟩ := within
  obtain ⟨later, inLeft, leavesLater⟩ := goesOn left inFront leaves
  refine ⟨later, inLeft.trans inFront, ?_⟩
  intro other
  dsimp only
  rw [leaves, leavesLater]

end EndsWithin

/-- A scan of characters that stops in a front stops there. -/
theorem endsWithin_dropWhile
    {holds : Char → Bool} {front : Text}
    (stops : front.dropWhile holds ≠ []) :
    EndsWithin (List.dropWhile holds) front := by
  refine ⟨front.dropWhile holds, List.dropWhile_suffix holds, ?_⟩
  intro following
  rw [List.dropWhile_append, if_neg (by simpa using stops)]

/-- What a scan that stops in a front takes does not depend on what follows the front. -/
theorem takeWhile_append_of_stops
    {holds : Char → Bool} {front : Text}
    (stops : front.dropWhile holds ≠ [])
    (following : Text) :
    (front ++ following).takeWhile holds = front.takeWhile holds := by
  have parts := congrArg List.length (List.takeWhile_append_dropWhile (p := holds) (l := front))
  have leftLength := List.length_pos_iff.mpr stops
  rw [List.length_append] at parts
  rw [List.takeWhile_append, if_neg (by omega)]

/-- A scan of characters that leaves the whole of what comes after a front stops in the front. -/
theorem endsWithin_dropWhile_of_length_le
    (holds : Char → Bool) {front tail : Text} {ch : Char}
    (goesOn : holds ch = true)
    (ends : (ch :: tail).length ≤ ((front ++ ch :: tail).dropWhile holds).length) :
    EndsWithin (List.dropWhile holds) front ∧ front.dropWhile holds ≠ [] := by
  have stops : front.dropWhile holds ≠ [] := by
    intro nothing
    rw [List.dropWhile_append, if_pos (by simpa using nothing),
      List.dropWhile_cons_of_pos goesOn, List.length_cons] at ends
    have bound := (List.dropWhile_suffix holds (l := tail)).length_le
    omega
  exact ⟨endsWithin_dropWhile stops, stops⟩

/-! ## Brackets -/

namespace Brackets

/-- A bracketed part that leaves the whole of what comes after a front ends within the front. -/
theorem endsWithin_remaining
    {brackets : Brackets}
    (noSlash : brackets.closes '/' = false)
    {front tail : Text}
    (notEmpty : tail ≠ [])
    {depth : Int} {quote : Quote} {previous : Option Char}
    (ends :
      tail.length ≤ (brackets.remaining depth quote previous (front ++ tail)).length) :
    EndsWithin (brackets.remaining depth quote previous) front := by
  have inText := brackets.remaining_suffix depth quote previous (front ++ tail)
  obtain ⟨left, leaves⟩ :=
    List.suffix_of_suffix_length_le (List.suffix_append front tail) inText ends
  obtain ⟨part, shape⟩ := inText
  rw [← leaves, ← List.append_assoc] at shape
  obtain rfl := List.append_cancel_right shape
  refine ⟨left, List.suffix_append part left, ?_⟩
  have leftNotEmpty : left ++ tail ≠ [] := by simp [notEmpty]
  have partNotEmpty : part ≠ [] := by
    rintro rfl
    exact brackets.remaining_ne_self depth quote previous leftNotEmpty leaves.symm
  intro following
  rw [List.append_assoc] at leaves ⊢
  exact remaining_append_of_eq noSlash partNotEmpty leftNotEmpty leaves.symm (left ++ following)

/-- A part that begins with its bracket, and leaves the whole of what comes after a front, ends
within the front. -/
theorem endsWithin_after_of_opens
    {brackets : Brackets} {opening : Char}
    (noSlash : brackets.closes '/' = false)
    (opens : brackets.opens opening = true)
    (visible : isWhitespace opening = false)
    {front tail : Text}
    (notEmpty : tail ≠ [])
    (ends : tail.length ≤ (brackets.after (opening :: front ++ tail)).length) :
    EndsWithin brackets.after (opening :: front) := by
  rw [List.cons_append, after_of_opens opens visible, ← List.cons_append] at ends
  obtain ⟨left, inFront, leaves⟩ := endsWithin_remaining noSlash notEmpty ends
  refine ⟨left, inFront, ?_⟩
  intro following
  rw [List.cons_append, after_of_opens opens visible]
  exact leaves following

/-- A part that is taken exactly ends with a bracket that closes it. -/
theorem exists_closes_of_leaves
    {brackets : Brackets} {opening : Char} {inner : Text}
    (opens : brackets.opens opening = true)
    (visible : isWhitespace opening = false)
    (leaves : ∀ following, brackets.after (opening :: inner ++ following) = [] ++ following) :
    ∃ before closing, brackets.closes closing = true ∧ opening :: inner = before ++ [closing] := by
  have taken := leaves [opening]
  rw [List.cons_append, after_of_opens opens visible, ← List.cons_append, List.nil_append] at taken
  obtain ⟨before, closing, closes, shape⟩ :=
    brackets.exists_closes_of_remaining 0 {} none
      (taken ▸ List.cons_ne_nil opening [])
  rw [taken, List.append_cons before] at shape
  exact ⟨before, closing, closes, List.append_cancel_right shape⟩

/-- What leaves more than what comes after a front ends within the front, or takes nothing of it but
whitespace. -/
theorem endsWithin_after_of_length_lt
    {brackets : Brackets}
    (noSlash : brackets.closes '/' = false)
    {front tail : Text}
    (notEmpty : tail ≠ [])
    (ends : tail.length < (brackets.after (front ++ tail)).length) :
    EndsWithin brackets.after front := by
  have visible : dropWhitespace front ≠ [] := by
    intro blank
    have onlyTail : brackets.after (front ++ tail) = brackets.after tail := by
      unfold after
      rw [dropWhitespace_append, if_pos blank]
    have bound := (brackets.after_suffix tail).length_le
    rw [onlyTail] at ends
    omega
  have atPart (following : Text) :
      dropWhitespace (front ++ following) = dropWhitespace front ++ following := by
    rw [dropWhitespace_append, if_neg visible]
  have inFront := dropWhitespace_suffix front
  obtain ⟨ch, rest, shape⟩ := List.exists_cons_of_ne_nil visible
  rw [shape] at inFront
  unfold after at ends
  rw [atPart, shape] at ends
  dsimp only [List.cons_append] at ends
  by_cases opens : brackets.opens ch = true
  · rw [if_pos opens] at ends
    have within : EndsWithin (brackets.remaining 0 {} none) (ch :: rest) :=
      endsWithin_remaining noSlash notEmpty (Nat.le_of_lt ends)
    obtain ⟨left, inPart, leaves⟩ := within
    refine ⟨left, inPart.trans inFront, ?_⟩
    intro following
    unfold after
    rw [atPart, shape]
    dsimp only [List.cons_append]
    rw [if_pos opens]
    exact leaves following
  · refine ⟨ch :: rest, inFront, ?_⟩
    intro following
    unfold after
    rw [atPart, shape]
    dsimp only [List.cons_append]
    rw [if_neg opens]

end Brackets

/-! ## Ends that are told apart by whitespace alone -/

namespace Seam

variable {tail otherTail lines front : Text}

/-- The end of the first text is not empty. -/
theorem ne_nil
    (seam : Seam tail otherTail lines) :
    tail ≠ [] := by
  obtain ⟨rest, rfl | rfl⟩ := seam.stops <;> exact List.cons_ne_nil _ _

/-- The end of the first text begins with a character that is no whitespace and opens nothing. -/
theorem exists_cons
    (seam : Seam tail otherTail lines) :
    ∃ ch rest,
      tail = ch :: rest ∧ isWhitespace ch = false ∧ (ch = '/' ∨ ch = '}') := by
  obtain ⟨rest, rfl | rfl⟩ := seam.stops
  · exact ⟨'/', rest, rfl, rfl, .inl rfl⟩
  · exact ⟨'}', rest, rfl, rfl, .inr rfl⟩

/-- The end of the first text does not begin with whitespace. -/
theorem dropWhitespace_eq
    (seam : Seam tail otherTail lines) :
    dropWhitespace tail = tail := by
  obtain ⟨ch, rest, rfl, visible, _⟩ := seam.exists_cons
  exact List.dropWhile_cons_of_neg (by simp [visible])

/-- What comes last in whole lines is a line end. -/
theorem exists_eq_lineEnd
    (wholeLines : lines.getLast? = some '\n')
    (inLines : front <:+ lines)
    (notEmpty : front ≠ []) :
    ∃ line, front = line ++ ['\n'] := by
  obtain ⟨before, rfl⟩ := inLines
  rw [List.getLast?_append_of_ne_nil _ notEmpty] at wholeLines
  exact List.getLast?_eq_some_iff.mp wholeLines

/-- A character that belongs to no name ends the words before it. -/
theorem startsWithWord_append_cons
    {word : Text}
    (isWord : ∀ ch ∈ word, isNameChar ch = true)
    {ch : Char}
    (notName : isNameChar ch = false)
    (text rest : Text) :
    startsWithWord word (text ++ ch :: rest) = startsWithWord word text := by
  apply startsWithWord_append_of_head
  rintro _ ⟨⟩
  refine ⟨notName, ?_⟩
  intro member
  cases notName.symm.trans (isWord ch member)

/-- The end of the first text does not go on with a word. -/
theorem startsWithWord_append
    (seam : Seam tail otherTail lines)
    {word : Text}
    (isWord : ∀ ch ∈ word, isNameChar ch = true)
    (text : Text) :
    startsWithWord word (text ++ tail) = startsWithWord word text := by
  obtain ⟨rest, rfl | rfl⟩ := seam.stops <;>
    exact startsWithWord_append_cons isWord (by decide) text rest

/-- Nor does the other end after a part of the lines. -/
theorem startsWithWord_append_other
    (seam : Seam tail otherTail lines)
    {word : Text}
    (isWord : ∀ ch ∈ word, isNameChar ch = true)
    (inLines : front <:+ lines)
    (notEmpty : front ≠ []) :
    startsWithWord word (front ++ otherTail) = startsWithWord word front := by
  rcases seam.otherStops with ⟨rest, rfl | rfl⟩ | wholeLines
  · exact startsWithWord_append_cons isWord (by decide) front rest
  · exact startsWithWord_append_cons isWord (by decide) front rest
  · obtain ⟨line, rfl⟩ := exists_eq_lineEnd wholeLines inLines notEmpty
    rw [List.append_assoc, List.singleton_append,
      startsWithWord_append_cons isWord (by decide) line otherTail,
      startsWithWord_append_cons isWord (by decide) line []]

end Seam

/-! ## Conditionals -/

/-- A branch takes something. -/
theorem length_afterBranch_lt
    {text : Text}
    (notEmpty : text ≠ []) :
    (afterBranch text).length < text.length := by
  have blanks := (dropWhitespace_suffix text).length_le
  have textLength := List.length_pos_iff.mpr notEmpty
  cases shape : dropWhitespace text with
  | nil =>
      rw [afterBranch_of_noBrace (by rw [shape]; exact nofun), shape]
      exact textLength
  | cons ch rest =>
      rw [shape, List.length_cons] at blanks
      by_cases isBrace : ch = '{'
      · subst isBrace
        have bound := (braces.after_cons_suffix '{' rest rfl rfl).length_le
        rw [afterBranch_of_brace shape]
        omega
      · have notLineEnd := ne_lineEnd_of_dropWhitespace shape
        have bound := (List.dropWhile_suffix (fun ch => ch != '\n') (l := rest)).length_le
        rw [afterBranch_of_noBrace (by rw [shape]; simpa using isBrace), shape,
          List.dropWhile_cons_of_pos (by simpa using notLineEnd)]
        omega

namespace Seam

variable {tail otherTail lines front : Text}

/-- A branch that leaves the whole end of a text ends within the front. -/
theorem endsWithin_afterBranch
    (seam : Seam tail otherTail lines)
    (ends : tail.length ≤ (afterBranch (front ++ tail)).length) :
    EndsWithin afterBranch front := by
  have visible : dropWhitespace front ≠ [] := by
    intro blank
    have onlyTail : afterBranch (front ++ tail) = afterBranch tail := by
      unfold afterBranch
      rw [dropWhitespace_append, if_pos blank]
    have bound := length_afterBranch_lt seam.ne_nil
    rw [onlyTail] at ends
    omega
  have inFront := dropWhitespace_suffix front
  obtain ⟨ch, rest, shape⟩ := List.exists_cons_of_ne_nil visible
  have atBranch (following : Text) :
      dropWhitespace (front ++ following) = ch :: rest ++ following := by
    rw [dropWhitespace_append, if_neg visible, shape]
  rw [shape] at inFront
  by_cases isBrace : ch = '{'
  · subst isBrace
    rw [afterBranch_of_brace (atBranch tail)] at ends
    obtain ⟨left, inPart, leaves⟩ :=
      Brackets.endsWithin_after_of_opens rfl rfl rfl seam.ne_nil ends
    refine ⟨left, inPart.trans inFront, ?_⟩
    intro following
    rw [afterBranch_of_brace (atBranch following)]
    exact leaves following
  · have noBrace (following : Text) :
        (dropWhitespace (front ++ following)).head? ≠ some '{' := by
      rw [atBranch]
      simpa using isBrace
    obtain ⟨first, tailRest, rfl, _, isFirst⟩ := seam.exists_cons
    have passes : (first != '\n') = true := by
      rcases isFirst with rfl | rfl <;> rfl
    rw [afterBranch_of_noBrace (noBrace _), atBranch] at ends
    obtain ⟨⟨left, inPart, leaves⟩, _⟩ :=
      endsWithin_dropWhile_of_length_le (fun ch => ch != '\n') passes ends
    refine ⟨left, inPart.trans inFront, ?_⟩
    intro following
    rw [afterBranch_of_noBrace (noBrace _), atBranch]
    exact leaves following

/-- A condition and its branch that leave the whole end of a text end within the front. -/
theorem endsWithin_afterGuarded
    (seam : Seam tail otherTail lines)
    (ends : tail.length ≤ (afterGuarded (front ++ tail)).length) :
    EndsWithin afterGuarded front := by
  have tailLength := List.length_pos_iff.mpr seam.ne_nil
  have notEmpty : parentheses.after (front ++ tail) ≠ [] := by
    intro nothing
    unfold afterGuarded at ends
    rw [nothing] at ends
    have bound := (afterBranch_suffix []).length_le
    rw [List.length_nil] at bound
    omega
  have condition : EndsWithin parentheses.after front := by
    refine Brackets.endsWithin_after_of_length_lt rfl seam.ne_nil ?_
    exact Nat.lt_of_le_of_lt ends (length_afterBranch_lt notEmpty)
  refine condition.comp ?_
  intro left _ leaves
  unfold afterGuarded at ends
  rw [leaves] at ends
  exact seam.endsWithin_afterBranch ends

end Seam

/-- An `else` is skipped with the condition that follows it, if one does, and with its branch. -/
theorem afterAlternatives_of_elseFollows
    {text : Text}
    (elseFollows : startsWithWord elseWord (dropWhitespace text) = true) :
    afterAlternatives text =
      if startsWithWord ifWord (dropWhitespace ((dropWhitespace text).drop elseWord.length)) then
        afterAlternatives
          (afterGuarded
            ((dropWhitespace ((dropWhitespace text).drop elseWord.length)).drop ifWord.length))
      else
        afterBranch (dropWhitespace ((dropWhitespace text).drop elseWord.length)) := by
  rw [afterAlternatives, dif_pos elseFollows]

/-- Where an alternative follows, its word is taken at least. -/
theorem length_afterAlternatives_lt
    {text : Text}
    (elseFollows : startsWithWord elseWord (dropWhitespace text) = true) :
    (afterAlternatives text).length < text.length := by
  have wordFits := length_le_of_startsWithWord elseFollows
  have wordLength : elseWord.length = 4 := rfl
  have blanks := (dropWhitespace_suffix text).length_le
  have moreBlanks :=
    (dropWhitespace_suffix ((dropWhitespace text).drop elseWord.length)).length_le
  rw [List.length_drop] at moreBlanks
  rw [afterAlternatives_of_elseFollows elseFollows]
  generalize dropWhitespace ((dropWhitespace text).drop elseWord.length) = alternative
    at moreBlanks ⊢
  split
  · have later :=
      (afterAlternatives_suffix (afterGuarded (alternative.drop ifWord.length))).length_le
    have guarded := (afterGuarded_suffix (alternative.drop ifWord.length)).length_le
    rw [List.length_drop] at guarded
    omega
  · have branch := (afterBranch_suffix alternative).length_le
    omega

namespace Seam

variable {tail otherTail lines front : Text}

/-- A front without a word has no alternatives, and only the other end may begin with one. -/
theorem alternatives_of_blank
    (seam : Seam tail otherTail lines)
    (blank : dropWhitespace front = []) :
    SameFront tail otherTail (afterAlternatives (front ++ tail))
        (afterAlternatives (front ++ otherTail)) ∨
      Overtakes otherTail (afterAlternatives (front ++ otherTail)) := by
  have isElse : ∀ ch ∈ elseWord, isNameChar ch = true := by decide
  have atEnd (following : Text) :
      dropWhitespace (front ++ following) = dropWhitespace following := by
    rw [dropWhitespace_append, if_pos blank]
  have noElse : startsWithWord elseWord (dropWhitespace (front ++ tail)) = false := by
    rw [atEnd, seam.dropWhitespace_eq]
    exact seam.startsWithWord_append isElse []
  rw [afterAlternatives_of_noElse noElse]
  by_cases elseFollows : startsWithWord elseWord (dropWhitespace otherTail) = true
  · have sameThere : afterAlternatives (front ++ otherTail) = afterAlternatives otherTail := by
      rw [afterAlternatives_of_elseFollows elseFollows,
        afterAlternatives_of_elseFollows ((atEnd otherTail).symm ▸ elseFollows), atEnd]
    rw [sameThere]
    exact .inr ⟨.inl elseFollows, length_afterAlternatives_lt elseFollows⟩
  · rw [Bool.not_eq_true, ← atEnd] at elseFollows
    rw [afterAlternatives_of_noElse elseFollows]
    exact .inl ⟨front, rfl, rfl⟩

/-- Alternatives that leave the whole end of a text end within the front, unless the other end
begins with a further one. -/
theorem alternatives
    (seam : Seam tail otherTail lines)
    (inLines : front <:+ lines)
    (ends : tail.length ≤ (afterAlternatives (front ++ tail)).length) :
    SameFront tail otherTail (afterAlternatives (front ++ tail))
        (afterAlternatives (front ++ otherTail)) ∨
      Overtakes otherTail (afterAlternatives (front ++ otherTail)) := by
  have isElse : ∀ ch ∈ elseWord, isNameChar ch = true := by decide
  have isIf : ∀ ch ∈ ifWord, isNameChar ch = true := by decide
  induction size : front.length using Nat.strongRecOn generalizing front with
  | ind length inductionHypothesis =>
    by_cases blank : dropWhitespace front = []
    · exact seam.alternatives_of_blank blank
    · have atWord (following : Text) :
          dropWhitespace (front ++ following) = dropWhitespace front ++ following := by
        rw [dropWhitespace_append, if_neg blank]
      have wordInLines := (dropWhitespace_suffix front).trans inLines
      have sameElse := seam.startsWithWord_append isElse (dropWhitespace front)
      have sameElseThere := seam.startsWithWord_append_other isElse wordInLines blank
      rw [← atWord] at sameElse sameElseThere
      by_cases elseFollows : startsWithWord elseWord (dropWhitespace front) = true
      · have wordFits := length_le_of_startsWithWord elseFollows
        have blanks := (dropWhitespace_suffix front).length_le
        have wordLength : elseWord.length = 4 := rfl
        rw [afterAlternatives_of_elseFollows (sameElse.trans elseFollows), atWord,
          List.drop_append_of_le_length wordFits] at ends ⊢
        rw [afterAlternatives_of_elseFollows (sameElseThere.trans elseFollows), atWord,
          List.drop_append_of_le_length wordFits]
        generalize afterElse : (dropWhitespace front).drop elseWord.length = left at ends ⊢
        have shorter : left.length < length := by
          rw [← afterElse, List.length_drop]
          omega
        by_cases nothing : dropWhitespace left = []
        · -- The branch would begin with the end of the text, and take something of it.
          have noIf : startsWithWord ifWord tail = false := seam.startsWithWord_append isIf []
          have bound := length_afterBranch_lt seam.ne_nil
          rw [dropWhitespace_append, if_pos nothing, seam.dropWhitespace_eq, noIf,
            if_neg Bool.false_ne_true] at ends
          omega
        · have moreBlanks := (dropWhitespace_suffix left).length_le
          have leftInLines : left <:+ lines :=
            (afterElse ▸ List.drop_suffix _ _).trans wordInLines
          have branchInLines := (dropWhitespace_suffix left).trans leftInLines
          have sameIf := seam.startsWithWord_append isIf (dropWhitespace left)
          have sameIfThere := seam.startsWithWord_append_other isIf branchInLines nothing
          rw [dropWhitespace_append, if_neg nothing, sameIf] at ends ⊢
          rw [dropWhitespace_append, if_neg nothing, sameIfThere]
          by_cases ifFollows : startsWithWord ifWord (dropWhitespace left) = true
          · have ifFits := length_le_of_startsWithWord ifFollows
            rw [if_pos ifFollows, List.drop_append_of_le_length ifFits] at ends ⊢
            rw [if_pos ifFollows, List.drop_append_of_le_length ifFits]
            obtain ⟨later, inLeft, leaves⟩ :=
              seam.endsWithin_afterGuarded
                (Nat.le_trans ends (afterAlternatives_suffix _).length_le)
            have bound := inLeft.length_le
            rw [List.length_drop] at bound
            rw [leaves] at ends ⊢
            rw [leaves]
            have laterInLines :=
              (inLeft.trans (List.drop_suffix _ _)).trans branchInLines
            exact inductionHypothesis later.length (by omega) laterInLines ends rfl
          · rw [if_neg ifFollows] at ends ⊢
            rw [if_neg ifFollows]
            exact .inl ((seam.endsWithin_afterBranch ends).sameFront tail otherTail)
      · rw [Bool.not_eq_true] at elseFollows
        rw [afterAlternatives_of_noElse (sameElse.trans elseFollows),
          afterAlternatives_of_noElse (sameElseThere.trans elseFollows)]
        exact .inl ⟨front, rfl, rfl⟩

/-- A conditional that leaves the whole end of a text ends within the front, unless the other end
begins with an alternative. -/
theorem conditional
    (seam : Seam tail otherTail lines)
    (inLines : front <:+ lines)
    (ends : tail.length ≤ (afterConditional (front ++ tail)).length) :
    SameFront tail otherTail (afterConditional (front ++ tail))
        (afterConditional (front ++ otherTail)) ∨
      Overtakes otherTail (afterConditional (front ++ otherTail)) := by
  unfold afterConditional at ends ⊢
  obtain ⟨left, inFront, leaves⟩ :=
    seam.endsWithin_afterGuarded (Nat.le_trans ends (afterAlternatives_suffix _).length_le)
  rw [leaves] at ends ⊢
  rw [leaves]
  exact seam.alternatives (inFront.trans inLines) ends

end Seam

/-! ## Declarations -/

/-- A function ends behind its parameters. -/
theorem afterFunction_suffix_after
    (text : Text) :
    afterFunction text <:+ parentheses.after text := by
  have blanksSkipped := dropWhitespace_suffix (parentheses.after text)
  unfold afterFunction
  dsimp only
  split
  · next body shape =>
      rw [shape] at blanksSkipped
      exact (braces.after_suffix _).trans blanksSkipped
  · exact List.suffix_rfl

/-- A declaration ends behind the words that it begins with. -/
theorem readDeclaration_suffix_dropWhile
    (text : Text) :
    (readDeclaration text).2 <:+ text.dropWhile isDeclarationChar := by
  unfold readDeclaration
  split
  · next parameters shape =>
      rw [shape]
      exact afterFunction_suffix _
  · exact List.suffix_rfl

namespace Seam

variable {tail otherTail lines front : Text}

/-- A function that leaves the whole end of a text ends within the front, unless the other end
begins with a body for it. -/
theorem function
    (seam : Seam tail otherTail lines)
    (ends : tail.length ≤ (afterFunction ('(' :: front ++ tail)).length) :
    SameFront tail otherTail (afterFunction ('(' :: front ++ tail))
        (afterFunction ('(' :: front ++ otherTail)) ∨
      Overtakes otherTail (afterFunction ('(' :: front ++ otherTail)) := by
  obtain ⟨left, _, leaves⟩ :=
    Brackets.endsWithin_after_of_opens rfl rfl rfl seam.ne_nil
      (Nat.le_trans ends (afterFunction_suffix_after _).length_le)
  by_cases blank : dropWhitespace left = []
  · -- Nothing is left of the front, and only the other end may begin with a body.
    have atEnd (following : Text) :
        dropWhitespace (parentheses.after ('(' :: front ++ following)) =
          dropWhitespace following := by
      rw [leaves, dropWhitespace_append, if_pos blank]
    have noBody : (dropWhitespace (parentheses.after ('(' :: front ++ tail))).head? ≠ some '{' := by
      rw [atEnd, seam.dropWhitespace_eq]
      obtain ⟨rest, rfl | rfl⟩ := seam.stops <;> simp
    rw [afterFunction_of_noBrace noBody, leaves]
    by_cases isBrace : (dropWhitespace otherTail).head? = some '{'
    · obtain ⟨body, shape⟩ := List.head?_eq_some_iff.mp isBrace
      have blanks := (dropWhitespace_suffix otherTail).length_le
      have bound := (braces.after_cons_suffix '{' body rfl rfl).length_le
      rw [shape, List.length_cons] at blanks
      rw [afterFunction_of_brace ((atEnd otherTail).trans shape)]
      exact .inr ⟨.inr isBrace, by omega⟩
    · rw [← atEnd] at isBrace
      rw [afterFunction_of_noBrace isBrace, leaves]
      exact .inl ⟨left, rfl, rfl⟩
  · left
    obtain ⟨ch, rest, shape⟩ := List.exists_cons_of_ne_nil blank
    have atBody (following : Text) :
        dropWhitespace (parentheses.after ('(' :: front ++ following)) =
          ch :: rest ++ following := by
      rw [leaves, dropWhitespace_append, if_neg blank, shape]
    by_cases isBrace : ch = '{'
    · subst isBrace
      rw [afterFunction_of_brace (atBody tail)] at ends ⊢
      rw [afterFunction_of_brace (atBody otherTail)]
      exact
        (Brackets.endsWithin_after_of_opens rfl rfl rfl seam.ne_nil ends).sameFront tail otherTail
    · have noBody (following : Text) :
          (dropWhitespace (parentheses.after ('(' :: front ++ following))).head? ≠ some '{' := by
        rw [atBody]
        simpa using isBrace
      rw [afterFunction_of_noBrace (noBody _), afterFunction_of_noBrace (noBody _), leaves, leaves]
      exact ⟨left, rfl, rfl⟩

/-- A declaration that leaves the whole end of a text declares the same name before the other end,
and ends within the front, unless the other end begins with the body of a function. -/
theorem declaration
    (seam : Seam tail otherTail lines)
    (ends : tail.length ≤ (readDeclaration (front ++ tail)).2.length) :
    ((readDeclaration (front ++ otherTail)).1 = (readDeclaration (front ++ tail)).1 ∧
        SameFront tail otherTail (readDeclaration (front ++ tail)).2
          (readDeclaration (front ++ otherTail)).2) ∨
      Overtakes otherTail (readDeclaration (front ++ otherTail)).2 := by
  obtain ⟨first, tailRest, tailShape, _, isFirst⟩ := seam.exists_cons
  have passes : isDeclarationChar first = true := by
    rcases isFirst with rfl | rfl <;> rfl
  have headEnds := Nat.le_trans ends (readDeclaration_suffix_dropWhile _).length_le
  rw [tailShape] at headEnds
  obtain ⟨_, stops⟩ := endsWithin_dropWhile_of_length_le isDeclarationChar passes headEnds
  have head (following : Text) :
      (front ++ following).dropWhile isDeclarationChar =
        front.dropWhile isDeclarationChar ++ following := by
    rw [List.dropWhile_append, if_neg (by simpa using stops)]
  by_cases isFunction : (front.dropWhile isDeclarationChar).head? = some '('
  · obtain ⟨parameters, shape⟩ := List.head?_eq_some_iff.mp isFunction
    have atParameters (following : Text) :
        (front ++ following).dropWhile isDeclarationChar = '(' :: (parameters ++ following) := by
      rw [head, shape]
      rfl
    rw [readDeclaration_of_parenthesis (atParameters tail)] at ends ⊢
    rw [readDeclaration_of_parenthesis (atParameters otherTail)]
    exact (seam.function ends).imp_left fun sameFront => ⟨rfl, sameFront⟩
  · left
    have noFunction (following : Text) :
        ((front ++ following).dropWhile isDeclarationChar).head? ≠ some '(' := by
      rw [head, List.head?_append_of_ne_nil _ stops]
      exact isFunction
    rw [readDeclaration_of_noParenthesis (noFunction _),
      readDeclaration_of_noParenthesis (noFunction _), takeWhile_append_of_stops stops,
      takeWhile_append_of_stops stops, head, head]
    exact ⟨rfl, _, rfl, rfl⟩

/-! ## What is kept with its text -/

/-- An array literal that leaves the whole end of a text has the same items before the other end,
and ends within the front. -/
theorem arrayLiteral
    (seam : Seam tail otherTail lines)
    (ends : tail.length ≤ (readArray ('[' :: front ++ tail)).2.length) :
    (readArray ('[' :: front ++ otherTail)).1 = (readArray ('[' :: front ++ tail)).1 ∧
      SameFront tail otherTail (readArray ('[' :: front ++ tail)).2
        (readArray ('[' :: front ++ otherTail)).2 := by
  obtain ⟨first, tailRest, tailShape, _, isFirst⟩ := seam.exists_cons
  have passes : (first != ']') = true := by
    rcases isFirst with rfl | rfl <;> rfl
  have read (following : Text) :
      readArray ('[' :: front ++ following) =
        (arrayItems ((front ++ following).takeWhile fun ch => ch != ']'),
          ((front ++ following).dropWhile fun ch => ch != ']').drop 1) :=
    rfl
  rw [read] at ends
  have contentEnds := Nat.le_trans ends (List.drop_suffix 1 _).length_le
  rw [tailShape] at contentEnds
  obtain ⟨_, stops⟩ := endsWithin_dropWhile_of_length_le (fun ch => ch != ']') passes contentEnds
  obtain ⟨closing, left, shape⟩ := List.exists_cons_of_ne_nil stops
  have leaves (following : Text) :
      ((front ++ following).dropWhile fun ch => ch != ']').drop 1 = left ++ following := by
    rw [List.dropWhile_append, if_neg (by simpa using stops), shape]
    rfl
  rw [read, read, leaves, leaves, takeWhile_append_of_stops stops, takeWhile_append_of_stops stops]
  exact ⟨rfl, left, rfl, rfl⟩

/-- A call that leaves the whole end of a text is kept as it is before the other end. -/
theorem keptCall
    (seam : Seam tail otherTail lines)
    (inLines : '(' :: front <:+ lines)
    (ends : tail.length ≤ (dropSpaces (parentheses.after ('(' :: front ++ tail))).length) :
    parentheses.taken ('(' :: front ++ otherTail) = parentheses.taken ('(' :: front ++ tail) ∧
      SameFront tail otherTail (dropSpaces (parentheses.after ('(' :: front ++ tail)))
        (dropSpaces (parentheses.after ('(' :: front ++ otherTail))) ∧
      ((dropSpaces (parentheses.after ('(' :: front ++ otherTail))).head? = some '{' ↔
        (dropSpaces (parentheses.after ('(' :: front ++ tail))).head? = some '{') := by
  obtain ⟨left, inFront, leaves⟩ :=
    Brackets.endsWithin_after_of_opens rfl rfl rfl seam.ne_nil
      (Nat.le_trans ends (dropSpaces_suffix _).length_le)
  obtain ⟨call, shape⟩ := inFront
  have taken (following : Text) : parentheses.taken ('(' :: front ++ following) = call := by
    have atCall : dropWhitespace ('(' :: front ++ following) = call ++ (left ++ following) := by
      rw [← List.append_assoc, shape]
      rfl
    unfold Brackets.taken
    rw [leaves, atCall, takenFrom, List.length_append, Nat.add_sub_cancel, List.take_left]
  rw [taken, taken, leaves, leaves]
  refine ⟨rfl, ?_⟩
  -- Neither end begins with a separator or a brace.
  have stopsAt (ch : Char) (notSpace : isSpace ch = false) (notBrace : ch ≠ '{')
      (text rest : Text) :
      dropSpaces (text ++ ch :: rest) = dropSpaces text ++ ch :: rest ∧
        ((dropSpaces text ++ ch :: rest).head? = some '{' ↔
          (dropSpaces text).head? = some '{') := by
    unfold dropSpaces
    rw [List.dropWhile_append, List.dropWhile_cons_of_neg (by simp [notSpace])]
    cases text.dropWhile isSpace with
    | nil =>
        exact ⟨rfl, by simp [notBrace]⟩
    | cons first later =>
        exact ⟨rfl, Iff.rfl⟩
  have tailStops :
      dropSpaces (left ++ tail) = dropSpaces left ++ tail ∧
        ((dropSpaces left ++ tail).head? = some '{' ↔ (dropSpaces left).head? = some '{') := by
    obtain ⟨rest, rfl | rfl⟩ := seam.stops <;> exact stopsAt _ rfl (by decide) left rest
  have otherStops :
      dropSpaces (left ++ otherTail) = dropSpaces left ++ otherTail ∧
        ((dropSpaces left ++ otherTail).head? = some '{' ↔ (dropSpaces left).head? = some '{') := by
    rcases seam.otherStops with ⟨rest, rfl | rfl⟩ | wholeLines
    · exact stopsAt _ rfl (by decide) left rest
    · exact stopsAt _ rfl (by decide) left rest
    · -- The call ends with a parenthesis, so a line end is left of the lines.
      have notEmpty : left ≠ [] := by
        rintro rfl
        obtain ⟨before, closing, closes, callShape⟩ :=
          Brackets.exists_closes_of_leaves rfl rfl leaves
        obtain ⟨line, lineShape⟩ :=
          exists_eq_lineEnd wholeLines inLines (List.cons_ne_nil '(' front)
        obtain ⟨_, isLineEnd⟩ := List.append_inj' (callShape.symm.trans lineShape) rfl
        rw [List.singleton_inj.mp isLineEnd] at closes
        cases closes
      have leftInLines : left <:+ lines := (List.suffix_append call left).trans (shape ▸ inLines)
      obtain ⟨line, rfl⟩ := exists_eq_lineEnd wholeLines leftInLines notEmpty
      obtain ⟨lineEnds, lineEndHead⟩ := stopsAt '\n' rfl (by decide) line []
      obtain ⟨lineGoesOn, lineHead⟩ := stopsAt '\n' rfl (by decide) line otherTail
      rw [lineEnds, List.append_assoc, List.append_assoc, List.singleton_append]
      exact ⟨lineGoesOn, lineHead.trans lineEndHead.symm⟩
  rw [tailStops.1, otherStops.1]
  exact ⟨⟨_, rfl, rfl⟩, otherStops.2.trans tailStops.2.symm⟩

end Seam

end GradleScript
