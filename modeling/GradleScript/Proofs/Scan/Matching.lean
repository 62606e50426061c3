import GradleScript.Proofs.Block.Lines
import GradleScript.Proofs.Scan.Enclosed
import GradleScript.Scan.Cursor
import Mathlib.Order.Bounds.Basic

namespace GradleScript

/-!
# The matching bracket

A bracketed part ends at the bracket that matches its first one.  Which one that is can be said
without skipping: every character of a text stands in code, in a literal or in a comment, and the
part ends as soon as it has as many closing brackets in code as opening ones.
-/

/-! ## Code, literals and comments -/

/-- What a place of a text belongs to, and in code and literals whether it is escaped, that is, just
behind a backslash. -/
inductive Region where
  | code (escaped : Bool)
  | literal (mark : Char) (escaped : Bool)
  | comment (kind : CommentKind)
  deriving Repr, DecidableEq

namespace Region

/-- The characters of a text that begins in a region, each with whether it stands in code.  The
marks around a literal and a comment belong to it. -/
def places : Region → Text → List (Char × Bool)
  | _, [] =>
      []
  | .code _, '/' :: '/' :: rest =>
      ('/', false) :: ('/', false) :: places (.comment .line) rest
  | .code _, '/' :: '*' :: rest =>
      ('/', false) :: ('*', false) :: places (.comment .block) rest
  | .code escaped, ch :: rest =>
      if isQuote ch && !escaped then
        (ch, false) :: places (.literal ch false) rest
      else
        (ch, true) :: places (.code (ch == '\\')) rest
  | .literal mark escaped, ch :: rest =>
      if ch == mark && !escaped then
        (ch, false) :: places (.code false) rest
      else
        (ch, false) :: places (.literal mark (ch == '\\')) rest
  | .comment .line, ch :: rest =>
      if ch == '\n' then
        (ch, false) :: places (.code false) rest
      else
        (ch, false) :: places (.comment .line) rest
  | .comment .block, '*' :: '/' :: rest =>
      ('*', false) :: ('/', false) :: places (.code false) rest
  | .comment .block, ch :: rest =>
      (ch, false) :: places (.comment .block) rest

/-- The places of a text are those of its characters. -/
theorem map_places
    (region : Region) (text : Text) :
    (region.places text).map Prod.fst = text := by
  fun_induction places region text with
  | case1 =>
      rfl
  | case2 | case3 | case4 | case5 | case6 | case7 | case8 | case9 | case10 | case11 =>
      simp_all

/-- Every character of a text has its place. -/
theorem length_places
    (region : Region) (text : Text) :
    (region.places text).length = text.length := by
  rw [← List.length_map Prod.fst, map_places]

/-- The places of a text in code, from a character on that begins no comment. -/
theorem places_code
    {ch : Char} {rest : Text}
    (noComment : commentAt? (ch :: rest) = none)
    (escaped : Bool) :
    (code escaped).places (ch :: rest) =
      if isQuote ch && !escaped then
        (ch, false) :: (literal ch false).places rest
      else
        (ch, true) :: (code (ch == '\\')).places rest := by
  rw [places]
  · rintro later rfl rfl
    cases noComment
  · rintro later rfl rfl
    cases noComment

/-- A comment in code begins a region of its own behind its two opening characters. -/
theorem places_code_of_comment
    {first second : Char} {kind : CommentKind}
    (starts : commentOpener? first second = some kind)
    (escaped : Bool) (body : Text) :
    (code escaped).places (first :: second :: body) =
      (first, false) :: (second, false) :: (comment kind).places body := by
  unfold commentOpener? at starts
  split at starts
  · cases starts
    rfl
  · cases starts
    rfl
  · cases starts

/-- In a block comment every character is passed over but the two of its first end mark. -/
theorem places_blockComment
    {ch : Char} {rest : Text}
    (noEnd : ch = '*' → rest.head? ≠ some '/') :
    (comment .block).places (ch :: rest) = (ch, false) :: (comment .block).places rest := by
  rw [places]
  rintro later rfl rfl
  exact noEnd rfl rfl

/-- Some characters outside code come first, and then the places of the rest of a text in code. -/
def PassesOver (places : List (Char × Bool)) (text rest : Text) : Prop :=
  ∃ passed : Text,
    text = passed ++ rest ∧
      places = passed.map (fun ch => (ch, false)) ++ (code false).places rest

/-- One more character outside code may come first. -/
theorem PassesOver.cons
    {places : List (Char × Bool)} {text rest : Text}
    (passes : PassesOver places text rest)
    (ch : Char) :
    PassesOver ((ch, false) :: places) (ch :: text) rest := by
  obtain ⟨passed, rfl, rfl⟩ := passes
  exact ⟨ch :: passed, rfl, rfl⟩

/-- A line comment passes over its body, with the line end that finishes it. -/
theorem passesOver_lineComment
    (body : Text) :
    PassesOver ((comment .line).places body) body ((Comment.opened .line).remaining body) := by
  induction body with
  | nil =>
      exact ⟨[], rfl, rfl⟩
  | cons ch rest inductionHypothesis =>
      rw [places, Comment.remaining]
      by_cases isLineEnd : ch = '\n'
      · subst isLineEnd
        exact ⟨['\n'], rfl, rfl⟩
      · have goesOn : (Comment.opened .line).hear [ch] = (false, Comment.opened .line) := by
          simp [Comment.hear, Comment.opened, isLineEnd]
        rw [goesOn, if_neg (by simpa using isLineEnd), if_neg Bool.false_ne_true]
        exact inductionHypothesis.cons ch

/-- A block comment ends with the first end mark behind what has been heard of it, of which a star
right before the body is no part of an end mark. -/
theorem passesOver_blockComment
    {heard body : Text}
    (noEnd : heard.head? = some '*' → body.head? ≠ some '/') :
    PassesOver ((comment .block).places body) body
      (Comment.remaining ⟨some .block, heard⟩ body) := by
  induction body generalizing heard with
  | nil =>
      exact ⟨[], rfl, rfl⟩
  | cons ch rest inductionHypothesis =>
      have goesOn :
          Comment.hear ⟨some .block, heard⟩ [ch] = (false, ⟨some .block, ch :: heard⟩) := by
        apply State.hear_blockComment
        rintro rfl isStar
        exact noEnd isStar rfl
      rw [Comment.remaining, goesOn, if_neg Bool.false_ne_true]
      by_cases ends : ch = '*' ∧ rest.head? = some '/'
      · obtain ⟨rfl, isSlash⟩ := ends
        obtain ⟨later, rfl⟩ := List.head?_eq_some_iff.mp isSlash
        exact ⟨['*', '/'], rfl, rfl⟩
      · have noEndHere : ch = '*' → rest.head? ≠ some '/' := fun isStar isSlash =>
          ends ⟨isStar, isSlash⟩
        rw [places_blockComment noEndHere]
        refine (inductionHypothesis ?_).cons ch
        intro isStar
        exact noEndHere (Option.some.inj isStar)

/-- The region of a comment is left where the comment ends. -/
theorem passesOver_comment
    (kind : CommentKind) (body : Text) :
    PassesOver ((comment kind).places body) body ((Comment.opened kind).remaining body) := by
  cases kind with
  | line =>
      exact passesOver_lineComment body
  | block =>
      exact passesOver_blockComment nofun

end Region

/-! ## Counting brackets -/

namespace Brackets

/-- Whether a place is one of code, with a character of a kind. -/
def inCode (kind : Char → Bool) (place : Char × Bool) : Bool :=
  place.2 && kind place.1

/-- Whether some places, behind a number of opening brackets, have as many closing brackets in code
as opening ones. -/
def Balances (brackets : Brackets) (depth : Nat) (places : List (Char × Bool)) : Prop :=
  places.countP (inCode brackets.closes) = depth + places.countP (inCode brackets.opens)

/-- The numbers of first places, behind a number of opening brackets, that balance. -/
def balancing (brackets : Brackets) (depth : Nat) (places : List (Char × Bool)) : Set Nat :=
  {stop | 0 < stop ∧ stop ≤ places.length ∧ brackets.Balances depth (places.take stop)}

/-- Whether a number is the least one of first places that balance, or the number of all places when
no first places balance. -/
def EndsAt
    (brackets : Brackets) (depth : Nat) (places : List (Char × Bool)) (stop : Nat) :
    Prop :=
  IsLeast (brackets.balancing depth places) stop ∨
    brackets.balancing depth places = ∅ ∧ stop = places.length

variable {brackets : Brackets} {depth next stop : Nat} {place : Char × Bool}
  {places : List (Char × Bool)}

/-- What balances behind a first place balances with it, when the place leads from one depth to the
other. -/
theorem succ_mem_balancing_iff
    (leads :
      depth + [place].countP (inCode brackets.opens) =
        next + [place].countP (inCode brackets.closes))
    (stop : Nat) (positive : 0 < stop) :
    stop + 1 ∈ brackets.balancing depth (place :: places) ↔
      stop ∈ brackets.balancing next places := by
  simp only [balancing, Balances, Set.mem_ofPred_eq, List.take_succ_cons, List.length_cons,
    List.countP_cons, List.countP_nil] at leads ⊢
  omega

/-- A place that leads to another depth stands before where that depth ends. -/
theorem EndsAt.cons
    (leads :
      depth + [place].countP (inCode brackets.opens) =
        next + [place].countP (inCode brackets.closes))
    (goesOn : 0 < next)
    (ends : brackets.EndsAt next places stop) :
    brackets.EndsAt depth (place :: places) (stop + 1) := by
  have notFirst : 1 ∉ brackets.balancing depth (place :: places) := by
    simp only [balancing, Balances, Set.mem_ofPred_eq, List.take_succ_cons, List.take_zero]
    omega
  have isLater (other : Nat) (balances : other ∈ brackets.balancing depth (place :: places)) :
      ∃ before, other = before + 1 ∧ before ∈ brackets.balancing next places := by
    obtain ⟨before, rfl⟩ : ∃ before, other = before + 1 :=
      Nat.exists_eq_succ_of_ne_zero (Nat.pos_iff_ne_zero.mp balances.1)
    have positive : 0 < before := by
      apply Nat.pos_of_ne_zero
      rintro rfl
      exact notFirst balances
    exact ⟨before, rfl, (succ_mem_balancing_iff leads before positive).mp balances⟩
  rcases ends with ⟨balances, least⟩ | ⟨never, isAll⟩
  · left
    refine ⟨(succ_mem_balancing_iff leads stop balances.1).mpr balances, ?_⟩
    intro other otherBalances
    obtain ⟨before, rfl, beforeBalances⟩ := isLater other otherBalances
    exact Nat.succ_le_succ (least beforeBalances)
  · right
    refine ⟨?_, by rw [isAll, List.length_cons]⟩
    apply Set.eq_empty_of_forall_notMem
    intro other otherBalances
    obtain ⟨before, _, beforeBalances⟩ := isLater other otherBalances
    rw [never] at beforeBalances
    exact beforeBalances

/-- Places outside code change no depth. -/
theorem EndsAt.passOver
    (goesOn : 0 < depth)
    (ends : brackets.EndsAt depth places stop)
    (passed : Text) :
    brackets.EndsAt depth (passed.map (fun ch => (ch, false)) ++ places)
      (passed.length + stop) := by
  induction passed with
  | nil =>
      rw [List.length_nil, Nat.zero_add]
      exact ends
  | cons ch passed inductionHypothesis =>
      rw [List.map_cons, List.cons_append, List.length_cons, Nat.add_right_comm]
      exact inductionHypothesis.cons rfl goesOn

/-- The closing bracket of the only bracket that is open ends it. -/
theorem endsAt_closing
    {ch : Char}
    (closes : brackets.closes ch = true)
    (notOpening : brackets.opens ch = false)
    (places : List (Char × Bool)) :
    brackets.EndsAt 1 ((ch, true) :: places) 1 := by
  left
  constructor
  · simp [balancing, Balances, inCode, closes, notOpening]
  · intro other balances
    exact balances.1

/-- Nothing is ended where the text has ended. -/
theorem endsAt_nil (depth : Nat) : brackets.EndsAt depth [] 0 := by
  right
  refine ⟨?_, rfl⟩
  apply Set.eq_empty_of_forall_notMem
  intro other balances
  exact absurd balances.2.1 (Nat.not_le.mpr balances.1)

/-! ## Skipping -/

/-- Whether brackets are no quotes, and none of them is both opening and closing. -/
structure Distinct (brackets : Brackets) : Prop where
  quote : ∀ ch, isQuote ch = true → brackets.opens ch = false ∧ brackets.closes ch = false
  closes : ∀ ch, brackets.opens ch = true → brackets.closes ch = false

/-- Parentheses are no quotes, and they open and close with different characters. -/
theorem distinct_parentheses : parentheses.Distinct where
  quote := by
    intro ch isMark
    exact
      ⟨beq_false_of_ne (ne_of_holds isMark (by decide)),
        beq_false_of_ne (ne_of_holds isMark (by decide))⟩
  closes := by
    intro ch isOpening
    rw [eq_of_beq isOpening]
    rfl

/-- Braces are no quotes, and they open and close with different characters. -/
theorem distinct_braces : braces.Distinct where
  quote := by
    intro ch isMark
    exact
      ⟨beq_false_of_ne (ne_of_holds isMark (by decide)),
        beq_false_of_ne (ne_of_holds isMark (by decide))⟩
  closes := by
    intro ch isOpening
    rw [eq_of_beq isOpening]
    rfl

end Brackets

/-- The region in which a scan stands that tracks quotes, by the character before. -/
inductive Quote.InRegion (quote : Quote) (previous : Option Char) : Region → Prop where
  | code :
      quote.isOpen = false → InRegion quote previous (.code (previous == some '\\'))
  | literal {mark : Char} :
      quote.isOpen = true → quote.mark = some mark → isQuote mark = true →
        InRegion quote previous (.literal mark (previous == some '\\'))

namespace Brackets

/-- Whether the skipping inside some brackets ends where their depth does. -/
def SkipsToEnd
    (brackets : Brackets) (depth : Nat) (quote : Quote) (previous : Option Char) (region : Region)
    (text : Text) :
    Prop :=
  ∃ stop,
    brackets.remaining depth quote previous text = text.drop stop ∧
      brackets.EndsAt depth (region.places text) stop

variable {brackets : Brackets} {quote : Quote} {previous : Option Char} {region : Region}
  {depth next : Nat} {ch : Char} {rest : Text}

/-- A character that leads to another depth is skipped. -/
theorem SkipsToEnd.cons
    {nextQuote : Quote} {nextRegion : Region}
    (inCode : Bool)
    (skips : brackets.SkipsToEnd next nextQuote (some ch) nextRegion rest)
    (goesOn : 0 < next)
    (remaining :
      brackets.remaining depth quote previous (ch :: rest) =
        brackets.remaining next nextQuote (some ch) rest)
    (places : region.places (ch :: rest) = (ch, inCode) :: nextRegion.places rest)
    (leads :
      depth + [(ch, inCode)].countP (Brackets.inCode brackets.opens) =
        next + [(ch, inCode)].countP (Brackets.inCode brackets.closes)) :
    brackets.SkipsToEnd depth quote previous region (ch :: rest) := by
  obtain ⟨stop, left, ends⟩ := skips
  refine ⟨stop + 1, ?_, ?_⟩
  · rw [remaining, left, List.drop_succ_cons]
  · rw [places]
    exact ends.cons leads goesOn

/-- A character of a literal is skipped. -/
theorem skipsToEnd_literal
    {mark : Char}
    (isOpen : quote.isOpen = true)
    (marked : quote.mark = some mark)
    (isMark : isQuote mark = true)
    (goesOn : 0 < depth)
    (later :
      ∀ (nextQuote : Quote) (nextRegion : Region),
        nextQuote.InRegion (some ch) nextRegion →
          brackets.SkipsToEnd depth nextQuote (some ch) nextRegion rest) :
    brackets.SkipsToEnd depth quote previous (.literal mark (previous == some '\\'))
      (ch :: rest) := by
  have remaining :
      brackets.remaining depth quote previous (ch :: rest) =
        brackets.remaining depth (quote.next ch previous) (some ch) rest := by
    rw [remaining_of_noComment brackets depth previous (.inl isOpen), isOpen]
    rfl
  by_cases closes : ch = mark ∧ previous ≠ some '\\'
  · obtain ⟨rfl, notEscaped⟩ := closes
    have closed : (quote.next ch previous).isOpen = false := by
      simp [Quote.next, isOpen, marked, notEscaped]
    have notBackslash : (some ch == some '\\') = false := by
      simpa using ne_of_holds isMark (by decide)
    have inCode :
        (quote.next ch previous).InRegion (some ch) (.code (some ch == some '\\')) :=
      .code closed
    rw [notBackslash] at inCode
    refine (later _ _ inCode).cons false goesOn remaining ?_ rfl
    simp [Region.places, notEscaped]
  · have stays : quote.next ch previous = quote := by
      unfold Quote.next
      rw [marked, isOpen]
      by_cases isEscaped : previous = some '\\'
      · simp [isEscaped]
      · have notMark : mark ≠ ch := fun isSame => closes ⟨isSame.symm, isEscaped⟩
        simp [isEscaped, notMark]
    rw [stays] at remaining
    refine (later _ _ (.literal isOpen marked isMark)).cons false goesOn remaining ?_ rfl
    have goesOnHere : (ch == mark && !(previous == some '\\')) = false := by
      simpa using closes
    rw [Region.places, goesOnHere]
    rfl

/-- A character of code that begins no comment is skipped, or ends the skipping. -/
theorem skipsToEnd_code
    (distinct : brackets.Distinct)
    (isClosed : quote.isOpen = false)
    (noComment : commentAt? (ch :: rest) = none)
    (goesOn : 0 < depth)
    (later :
      ∀ (next : Nat) (nextQuote : Quote) (nextRegion : Region),
        0 < next → nextQuote.InRegion (some ch) nextRegion →
          brackets.SkipsToEnd next nextQuote (some ch) nextRegion rest) :
    brackets.SkipsToEnd depth quote previous (.code (previous == some '\\')) (ch :: rest) := by
  have noCommentHere : quote.isOpen = true ∨ commentAt? (ch :: rest) = none := .inr noComment
  have remaining := remaining_of_noComment brackets depth previous noCommentHere
  have places := Region.places_code noComment (previous == some '\\')
  rw [isClosed, Bool.false_or] at remaining
  cases isMark : isQuote ch with
  | true =>
      obtain ⟨notOpening, notClosing⟩ := distinct.quote ch isMark
      rw [isMark] at remaining places
      rw [if_pos rfl] at remaining
      by_cases isEscaped : previous = some '\\'
      · have stays : quote.next ch previous = quote := by
          simp [Quote.next, isEscaped]
        rw [stays] at remaining
        refine (later depth _ _ goesOn (.code isClosed)).cons true goesOn remaining ?_ ?_
        · rw [places, isEscaped]
          rfl
        · simp [inCode, notOpening, notClosing]
      · have opened : quote.next ch previous = ⟨true, some ch⟩ := by
          simp [Quote.next, isEscaped, isClosed, isMark]
        have notBackslash : (some ch == some '\\') = false := by
          simpa using ne_of_holds isMark (by decide)
        have inLiteral :
            Quote.InRegion ⟨true, some ch⟩ (some ch) (.literal ch (some ch == some '\\')) :=
          .literal rfl rfl isMark
        rw [notBackslash] at inLiteral
        rw [opened] at remaining
        refine (later depth _ _ goesOn inLiteral).cons false goesOn remaining ?_ rfl
        rw [places]
        simp [isEscaped]
  | false =>
      rw [isMark, Bool.false_and, if_neg Bool.false_ne_true] at places
      rw [isMark, if_neg Bool.false_ne_true] at remaining
      cases isOpening : brackets.opens ch with
      | true =>
          have notClosing := distinct.closes ch isOpening
          rw [isOpening, if_pos rfl] at remaining
          refine (later (depth + 1) _ _ (Nat.succ_pos depth) (.code isClosed)).cons true
            (Nat.succ_pos depth) (by exact_mod_cast remaining) places ?_
          simp [inCode, isOpening, notClosing]
      | false =>
          rw [isOpening, if_neg Bool.false_ne_true] at remaining
          cases isClosing : brackets.closes ch with
          | false =>
              rw [isClosing, if_neg Bool.false_ne_true] at remaining
              refine (later depth _ _ goesOn (.code isClosed)).cons true goesOn remaining places ?_
              simp [inCode, isOpening, isClosing]
          | true =>
              rw [isClosing, if_pos rfl] at remaining
              by_cases isLast : depth = 1
              · subst isLast
                refine ⟨1, by rw [remaining]; rfl, ?_⟩
                rw [places]
                exact endsAt_closing isClosing isOpening _
              · obtain ⟨less, rfl⟩ : ∃ less, depth = less + 1 :=
                  Nat.exists_eq_succ_of_ne_zero (Nat.pos_iff_ne_zero.mp goesOn)
                have stillInside : 0 < less := by omega
                have notLast : (((less + 1 : Nat) : Int) == 1) = false :=
                  beq_false_of_ne fun isOne => isLast (by exact_mod_cast isOne)
                have oneLess : ((less + 1 : Nat) : Int) - 1 = less := by omega
                rw [notLast, if_neg Bool.false_ne_true, oneLess] at remaining
                refine (later less _ _ stillInside (.code isClosed)).cons true stillInside
                  remaining places ?_
                simp [inCode, isOpening, isClosing]

/-- A comment of code is passed over. -/
theorem skipsToEnd_comment
    {first second : Char} {kind : CommentKind} {body : Text}
    (isClosed : quote.isOpen = false)
    (starts : commentOpener? first second = some kind)
    (goesOn : 0 < depth)
    (later :
      brackets.SkipsToEnd depth quote none (.code false) ((Comment.opened kind).remaining body))
    (escaped : Bool) :
    brackets.SkipsToEnd depth quote previous (.code escaped) (first :: second :: body) := by
  obtain ⟨stop, left, ends⟩ := later
  obtain ⟨passed, bodyShape, placesShape⟩ := Region.passesOver_comment kind body
  have remaining := remaining_of_comment brackets depth previous isClosed starts body
  refine ⟨(first :: second :: passed).length + stop, ?_, ?_⟩
  · have textShape :
        first :: second :: body =
          first :: second :: passed ++ (Comment.opened kind).remaining body :=
      congrArg (fun text => first :: second :: text) bodyShape
    rw [remaining, left, textShape, List.drop_length_add_append]
  · rw [Region.places_code_of_comment starts, placesShape]
    exact ends.passOver goesOn (first :: second :: passed)

/-- Inside brackets the skipping ends where the depth does. -/
theorem skipsToEnd
    (distinct : brackets.Distinct)
    (inRegion : quote.InRegion previous region)
    (goesOn : 0 < depth)
    (text : Text) :
    brackets.SkipsToEnd depth quote previous region text := by
  -- By induction on what is left: a character leaves less, and so does a comment.
  induction left : text.length using Nat.strongRecOn
    generalizing depth quote previous region text with
  | ind length inductionHypothesis =>
    cases text with
    | nil =>
        refine ⟨0, by rw [remaining]; rfl, ?_⟩
        cases region <;> exact endsAt_nil depth
    | cons ch rest =>
        have shorter : rest.length < length := by
          rw [← left, List.length_cons]
          exact Nat.lt_succ_self _
        have later (next : Nat) (nextQuote : Quote) (nextRegion : Region)
            (stillInside : 0 < next) (nextInRegion : nextQuote.InRegion (some ch) nextRegion) :
            brackets.SkipsToEnd next nextQuote (some ch) nextRegion rest :=
          inductionHypothesis _ shorter nextInRegion stillInside rest rfl
        cases inRegion with
        | literal isOpen marked isMark =>
            exact skipsToEnd_literal isOpen marked isMark goesOn
              fun nextQuote nextRegion => later depth nextQuote nextRegion goesOn
        | code isClosed =>
            cases starts : commentAt? (ch :: rest) with
            | none =>
                exact skipsToEnd_code distinct isClosed starts goesOn later
            | some kind =>
                cases rest with
                | nil =>
                    cases starts
                | cons second body =>
                    have bound := ((Comment.opened kind).remaining_suffix body).length_le
                    have inCode : quote.InRegion none (.code false) := .code isClosed
                    refine skipsToEnd_comment isClosed starts goesOn ?_ _
                    exact
                      inductionHypothesis _
                        (by rw [← left, List.length_cons, List.length_cons]; omega)
                        inCode goesOn _ rfl

/-- How many of a number of first characters of a text are of a kind and stand in code, when the
text begins in code. -/
def codeCount (kind : Char → Bool) (text : Text) (stop : Nat) : Nat :=
  (((Region.code false).places text).take stop).countP (inCode kind)

/-- A bracketed part ends where its brackets balance. -/
theorem exists_remaining_of_opens
    (distinct : brackets.Distinct)
    {opening : Char}
    (opens : brackets.opens opening = true)
    (noComment : opening ≠ '/')
    (rest : Text) :
    ∃ stop,
      brackets.remaining 0 {} none (opening :: rest) = (opening :: rest).drop stop ∧
        brackets.EndsAt 0 ((Region.code false).places (opening :: rest)) stop := by
  have notClosing := distinct.closes opening opens
  have notMark : isQuote opening = false := by
    cases isMark : isQuote opening with
    | true =>
        exact opens.symm.trans (distinct.quote opening isMark).1
    | false =>
        rfl
  have noneStarts := commentAt?_of_ne_slash noComment rest
  have noCommentHere :
      ({} : Quote).isOpen = true ∨ commentAt? (opening :: rest) = none := .inr noneStarts
  have remaining := remaining_of_noComment brackets 0 none noCommentHere
  have places := Region.places_code noneStarts false
  rw [notMark] at remaining places
  rw [Bool.or_false, if_neg Bool.false_ne_true, opens, if_pos rfl] at remaining
  rw [Bool.false_and, if_neg Bool.false_ne_true] at places
  have inside : (({} : Quote)).InRegion (some opening) (.code (opening == '\\')) := .code rfl
  refine SkipsToEnd.cons true (skipsToEnd distinct inside (Nat.succ_pos 0) rest)
    (Nat.succ_pos 0) remaining places ?_
  simp [inCode, opens, notClosing]

end Brackets

/-! ## The place reached -/

/-- Whitespace is a blank, a tab, a carriage return or a line end. -/
theorem isWhitespace_eq :
    isWhitespace = fun ch => [' ', '\t', '\r', '\n'].contains ch := by
  funext ch
  unfold isWhitespace CharRole.of
  split <;> simp_all

/-- A cursor that moves over a part of the text moves by the length of the part. -/
theorem Cursor.position_moveTo
    (cursor : Cursor)
    {before remaining : Text}
    (shape : cursor.rest = before ++ remaining) :
    (cursor.moveTo remaining).position = cursor.position + before.length := by
  simp [Cursor.moveTo, Cursor.position, shape, Nat.add_comm]

/-- What is left is an end part of a text, so what is taken is the part before it. -/
theorem takenFrom_drop
    {text : Text} {stop : Nat}
    (inText : stop ≤ text.length) :
    takenFrom text (text.drop stop) = text.take stop := by
  unfold takenFrom
  rw [List.length_drop, Nat.sub_sub_self inText]

namespace Brackets

/-- Brackets end within the text. -/
theorem EndsAt.le_length
    {brackets : Brackets} {depth stop : Nat} {places : List (Char × Bool)}
    (ends : brackets.EndsAt depth places stop) :
    stop ≤ places.length := by
  rcases ends with isLeast | ⟨_, isAll⟩
  · exact isLeast.1.2.1
  · exact isAll.le

/-- Where no bracket opens, nothing is taken. -/
theorem after_of_notOpening
    {brackets : Brackets} {opening : Char} {text : Text}
    (opens : brackets.opens = fun ch => ch == opening)
    (notOpening : (dropWhitespace text).head? ≠ some opening) :
    brackets.after text = dropWhitespace text := by
  unfold after
  split
  · next nothing =>
      rw [nothing]
  · next ch rest shape =>
      have notBracket : ch ≠ opening := by
        simpa [shape] using notOpening
      rw [opens, shape]
      exact if_neg (by simpa using notBracket)

/-- Where a bracket opens, what is taken ends where brackets balance. -/
theorem exists_after_of_opening
    {brackets : Brackets} {opening : Char} {text rest : Text}
    (distinct : brackets.Distinct)
    (opens : brackets.opens = fun ch => ch == opening)
    (noComment : opening ≠ '/')
    (shape : dropWhitespace text = opening :: rest) :
    ∃ stop ≤ (opening :: rest).length,
      brackets.after text = (opening :: rest).drop stop ∧
        brackets.EndsAt 0 ((Region.code false).places (opening :: rest)) stop := by
  have isOpening : brackets.opens opening = true := by simp [opens]
  obtain ⟨stop, left, ends⟩ := exists_remaining_of_opens distinct isOpening noComment rest
  have inText := ends.le_length
  rw [Region.length_places] at inText
  refine ⟨stop, inText, ?_, ends⟩
  unfold after
  rw [shape]
  exact (if_pos isOpening).trans left

end Brackets

/--
To skip an argument list or a body from a place of a text is to pass over blanks and line ends
first.  If no opening bracket comes then, nothing more is passed over.  Otherwise what is taken ends
as soon as it has as many closing brackets as opening ones in code, or with the text when that never
happens.
-/
theorem skips_through_match
    {brackets : Brackets} {opening closing : Char}
    (isPair :
      brackets = parentheses ∧ opening = '(' ∧ closing = ')' ∨
        brackets = braces ∧ opening = '{' ∧ closing = '}')
    (cursor : Cursor) :
    let isBefore (ch : Char) : Bool := [' ', '\t', '\r', '\n'].contains ch
    let start := cursor.position + (cursor.rest.takeWhile isBefore).length
    let part := cursor.rest.dropWhile isBefore
    let reached := cursor.moveTo (brackets.after cursor.rest)
    reached.text = cursor.text ∧
      (part.head? ≠ some opening →
        brackets.taken cursor.rest = [] ∧ reached.position = start) ∧
      (part.head? = some opening →
        ∃ stop,
          brackets.taken cursor.rest = part.take stop ∧
            reached.position = start + stop ∧
            (IsLeast
                {stop | 0 < stop ∧ stop ≤ part.length ∧
                  Brackets.codeCount (· == closing) part stop =
                    Brackets.codeCount (· == opening) part stop}
                stop ∨
              (∀ other, 0 < other → other ≤ part.length →
                Brackets.codeCount (· == closing) part other ≠
                  Brackets.codeCount (· == opening) part other) ∧
              stop = part.length)) := by
  intro isBefore start part reached
  obtain ⟨distinct, opens, closes, noComment⟩ :
      brackets.Distinct ∧ (brackets.opens = fun ch => ch == opening) ∧
        (brackets.closes = fun ch => ch == closing) ∧ opening ≠ '/' := by
    rcases isPair with ⟨rfl, rfl, rfl⟩ | ⟨rfl, rfl, rfl⟩
    · exact ⟨Brackets.distinct_parentheses, rfl, rfl, by decide⟩
    · exact ⟨Brackets.distinct_braces, rfl, rfl, by decide⟩
  have partShape : dropWhitespace cursor.rest = part :=
    congrArg (fun skips => cursor.rest.dropWhile skips) isWhitespace_eq
  have shape : cursor.rest = cursor.rest.takeWhile isBefore ++ part :=
    List.takeWhile_append_dropWhile.symm
  refine ⟨cursor.text_moveTo (brackets.after_suffix _), ?_, ?_⟩
  · intro notOpening
    have left := Brackets.after_of_notOpening opens (partShape ▸ notOpening)
    refine ⟨?_, cursor.position_moveTo (by rw [left, partShape]; exact shape)⟩
    unfold Brackets.taken
    rw [left]
    simp [takenFrom]
  · intro isOpening
    obtain ⟨rest, startsShape⟩ := List.head?_eq_some_iff.mp isOpening
    obtain ⟨stop, inPart, left, ends⟩ :=
      Brackets.exists_after_of_opening distinct opens noComment (partShape.trans startsShape)
    rw [← startsShape] at inPart left ends
    refine ⟨stop, ?_, ?_, ?_⟩
    · unfold Brackets.taken
      rw [left, partShape]
      exact takenFrom_drop inPart
    · have before :
          cursor.rest =
            (cursor.rest.takeWhile isBefore ++ part.take stop) ++ brackets.after cursor.rest := by
        rw [left, List.append_assoc, List.take_append_drop]
        exact shape
      rw [cursor.position_moveTo before, List.length_append, List.length_take_of_le inPart,
        ← Nat.add_assoc]
    · have sameBalance :
          brackets.balancing 0 ((Region.code false).places part) =
            {stop | 0 < stop ∧ stop ≤ part.length ∧
              Brackets.codeCount (· == closing) part stop =
                Brackets.codeCount (· == opening) part stop} := by
        unfold Brackets.balancing Brackets.Balances Brackets.codeCount
        simp only [opens, closes, Region.length_places, Nat.zero_add]
      unfold Brackets.EndsAt at ends
      rw [sameBalance, Region.length_places] at ends
      rcases ends with isLeast | ⟨never, isAll⟩
      · exact .inl isLeast
      · refine .inr ⟨?_, isAll⟩
        intro other positive inText same
        exact Set.eq_empty_iff_forall_notMem.mp never other ⟨positive, inText, same⟩

/-- Brackets in literals, in comments and behind an escaped quote are skipped as what they are. -/
theorem skips_through_match_markedBrackets :
    let cursor : Cursor := ⟨['f'], "\n(')' /*)*/ (//)\n)\\') b".toList⟩
    let part := "(')' /*)*/ (//)\n)\\') b".toList
    parentheses.taken cursor.rest = "(')' /*)*/ (//)\n)\\')".toList ∧
      ∃ stop,
        parentheses.taken cursor.rest = part.take stop ∧
          (cursor.moveTo (parentheses.after cursor.rest)).position = 2 + stop ∧
          IsLeast
            {stop | 0 < stop ∧ stop ≤ part.length ∧
              Brackets.codeCount (· == ')') part stop = Brackets.codeCount (· == '(') part stop}
            stop := by
  intro cursor part
  have taken : parentheses.taken cursor.rest = "(')' /*)*/ (//)\n)\\')".toList := by
    decide +kernel
  obtain ⟨stop, takenShape, position, isLeast | ⟨never, _⟩⟩ :=
    (skips_through_match (.inl ⟨rfl, rfl, rfl⟩) cursor).2.2 rfl
  · exact ⟨taken, stop, takenShape, position, isLeast⟩
  · exact (never 21 (by decide) (by decide) (by decide)).elim

end GradleScript
