import GradleScript.Proofs.Simulation.Comments
import Mathlib.Order.Bounds.Basic

namespace GradleScript

/-!
# Where comments end

A comment ends behind the first end mark after its opener, or with the text.  Skipping a comment in
one go and reading it character by character both stop there.  The comment itself only knows what
it has heard so far, so the search for the first mark follows the text from the opener on.
-/

/-! ## The end marks of a comment -/

namespace CommentKind

/-- What ends a comment of a kind. -/
def endMark : CommentKind → Text
  | .line => ['\n']
  | .block => ['*', '/']

/-- The places of a text, from an origin on, where an end mark stands. -/
def endMarks (kind : CommentKind) (text : Text) (origin : Nat) : Set Nat :=
  { place | origin ≤ place ∧ kind.endMark <+: text.drop place }

/-- Whether a comment whose body begins at an origin ends at a place: behind the first end mark,
when one is found, and else where the text ends. -/
def EndsAt (kind : CommentKind) (text : Text) (origin : Nat) (found : Bool) (stop : Nat) : Prop :=
  found = true ∧
      (∃ place, IsLeast (kind.endMarks text origin) place ∧ stop = place + kind.endMark.length) ∨
    found = false ∧ kind.endMarks text origin = ∅ ∧ stop = text.length

variable {kind : CommentKind} {text : Text} {origin stop : Nat} {found : Bool}

/-- Where no end mark is left, a comment takes the rest of the text. -/
theorem endsAt_of_noMark
    (noMark : ¬kind.endMark <:+: text.drop origin) :
    kind.EndsAt text origin false text.length := by
  refine .inr ⟨rfl, Set.eq_empty_of_forall_notMem fun place ⟨behind, mark⟩ => ?_, rfl⟩
  obtain ⟨count, rfl⟩ := Nat.exists_eq_add_of_le behind
  rw [← List.drop_drop] at mark
  exact noMark (mark.isInfix.trans (List.drop_suffix count _).isInfix)

/-- A comment ends with the first character that completes an end mark. -/
theorem endsAt_of_firstMark
    {read rest : Text} {ch : Char}
    (body : text.drop origin = read ++ ch :: rest)
    (noEnd : ¬kind.endMark <:+: read)
    (mark : kind.endMark <:+ read ++ [ch]) :
    kind.EndsAt text origin true (origin + (read.length + 1)) := by
  obtain ⟨before, shape⟩ := mark
  have lengths : before.length + kind.endMark.length = read.length + 1 := by
    rw [← List.length_append, shape, List.length_append, List.length_singleton]
  have atMark : text.drop (origin + before.length) = kind.endMark ++ rest := by
    rw [← List.drop_drop, body, List.append_cons, ← shape, List.append_assoc, List.drop_left]
  refine .inl ⟨rfl, origin + before.length, ⟨⟨Nat.le_add_right .., rest, atMark.symm⟩, ?_⟩, ?_⟩
  · rintro place ⟨behind, earlier⟩
    obtain ⟨count, rfl⟩ := Nat.exists_eq_add_of_le behind
    by_contra isEarlier
    -- An earlier mark is complete in what has been read.
    have inRead : count ≤ read.length := by omega
    rw [← List.drop_drop, body, List.drop_append_of_le_length inRead] at earlier
    have fits : kind.endMark.length ≤ (read.drop count).length := by
      rw [List.length_drop]
      omega
    have isRead : kind.endMark <+: read.drop count :=
      List.prefix_of_prefix_length_le earlier (List.prefix_append ..) fits
    exact noEnd (isRead.isInfix.trans (List.drop_suffix count read).isInfix)
  · omega

/-- A comment ends at one place. -/
theorem EndsAt.unique
    {otherFound : Bool} {otherStop : Nat}
    (ends : kind.EndsAt text origin found stop)
    (otherEnds : kind.EndsAt text origin otherFound otherStop) :
    otherFound = found ∧ otherStop = stop := by
  rcases ends with ⟨rfl, place, least, rfl⟩ | ⟨rfl, noMark, rfl⟩ <;>
    rcases otherEnds with ⟨rfl, otherPlace, otherLeast, rfl⟩ | ⟨rfl, otherNoMark, rfl⟩
  · rw [least.unique otherLeast]
    exact ⟨rfl, rfl⟩
  · exact absurd least.1 (otherNoMark ▸ Set.notMem_empty place)
  · exact absurd otherLeast.1 (noMark ▸ Set.notMem_empty otherPlace)
  · exact ⟨rfl, rfl⟩

/-- A comment ends within the text. -/
theorem EndsAt.stop_le
    (ends : kind.EndsAt text origin found stop) :
    stop ≤ text.length := by
  rcases ends with ⟨_, place, ⟨⟨_, mark⟩, _⟩, rfl⟩ | ⟨_, _, rfl⟩
  · have inside : place ≤ text.length := by
      by_contra outside
      rw [List.drop_eq_nil_of_le (Nat.le_of_not_le outside), List.prefix_nil] at mark
      cases kind <;> cases mark
    have bound := mark.length_le
    rw [List.length_drop] at bound
    omega
  · exact Nat.le_refl _

end CommentKind

/-! ## What is heard of a comment -/

namespace Comment

/-- The comment of which a text without an end mark has been read.  Nothing is
kept of a line comment. -/
def having : CommentKind → Text → Comment
  | .line, _ => opened .line
  | .block, read => ⟨some .block, read.reverse⟩

/-- A comment that has been read so far is still being read. -/
theorem isOpen_having
    (kind : CommentKind) (read : Text) :
    (having kind read).isOpen = true := by
  cases kind <;> rfl

/-- The last two characters complete the end mark of a block comment. -/
theorem blockEnd_suffix_iff
    {read : Text} {ch : Char} :
    CommentKind.block.endMark <:+ read ++ [ch] ↔
      ch = '/' ∧ read.reverse.head? = some '*' := by
  rw [← List.reverse_prefix, List.reverse_concat]
  cases read.reverse with
  | nil =>
      simp [CommentKind.endMark]
  | cons last before =>
      simp [CommentKind.endMark, eq_comm]

/-- A further character ends a comment when an end mark stands in all that has
been read of it, though only the last character that was kept is looked at. -/
theorem hear_ended_iff
    {kind : CommentKind} {read : Text} {ch : Char}
    (noEnd : ¬kind.endMark <:+: read) :
    ((having kind read).hear [ch]).1 = true ↔ kind.endMark <:+: read ++ [ch] := by
  rw [List.infix_concat_iff, or_iff_left noEnd]
  cases kind with
  | line =>
      by_cases isLineEnd : ch = '\n'
      · subst isLineEnd
        exact iff_of_true rfl (List.suffix_append read ['\n'])
      · refine iff_of_false ?_ fun mark => ?_
        · simp [having, opened, hear, isLineEnd]
        · simp [CommentKind.endMark, Ne.symm isLineEnd] at mark
  | block =>
      rw [blockEnd_suffix_iff]
      by_cases completes : ch = '/' ∧ read.reverse.head? = some '*'
      · obtain ⟨rfl, isStar⟩ := completes
        obtain ⟨before, shape⟩ := List.head?_eq_some_iff.mp isStar
        rw [having, shape]
        exact iff_of_true rfl ⟨rfl, rfl⟩
      · rw [having, State.hear_blockComment fun isSlash isStar => completes ⟨isSlash, isStar⟩]
        exact iff_of_false Bool.false_ne_true completes

/-- A comment goes on while what has been read of it holds no end mark. -/
theorem hear_having
    {kind : CommentKind} {read : Text} {ch : Char}
    (noMark : ¬kind.endMark <:+: read ++ [ch]) :
    (having kind read).hear [ch] = (false, having kind (read ++ [ch])) := by
  cases kind with
  | line =>
      have notLineEnd : ch ≠ '\n' := by
        rintro rfl
        exact noMark (List.suffix_append read ['\n']).isInfix
      simp [having, opened, hear, notLineEnd]
  | block =>
      have notEnd : ch = '/' → read.reverse.head? ≠ some '*' := fun isSlash isStar =>
        noMark (blockEnd_suffix_iff.mpr ⟨isSlash, isStar⟩).isInfix
      rw [having, State.hear_blockComment notEnd, having, List.reverse_concat]

/-- Nothing is left of a comment that is no longer being read. -/
theorem afterHearing_eq_closed_iff
    {comment : Comment}
    (isOpen : comment.isOpen = true)
    (text : Text) :
    comment.afterHearing text = .closed ↔ (comment.afterHearing text).isOpen = false := by
  rcases afterHearing_cases isOpen text with closes | ⟨goesOn, _⟩
  · rw [closes]
    exact iff_of_true rfl rfl
  · rw [goesOn]
    refine iff_of_false (fun closes => ?_) nofun
    rw [closes] at goesOn
    cases goesOn

/-- A comment of which something has been read ends at the first end mark of
its body. -/
theorem endsAt_having
    (kind : CommentKind) {text read rest : Text} {origin : Nat}
    (body : text.drop origin = read ++ rest)
    (noEnd : ¬kind.endMark <:+: read) :
    ∃ stop,
      kind.EndsAt text origin (!((having kind read).afterHearing rest).isOpen) stop ∧
        (having kind read).remaining rest = text.drop stop := by
  induction rest generalizing read with
  | nil =>
      rw [List.append_nil] at body
      rw [afterHearing, isOpen_having]
      exact ⟨text.length, CommentKind.endsAt_of_noMark (body ▸ noEnd), List.drop_length.symm⟩
  | cons ch rest inductionHypothesis =>
      rw [afterHearing, remaining]
      by_cases mark : kind.endMark <:+: read ++ [ch]
      · have isLast : kind.endMark <:+ read ++ [ch] :=
          (List.infix_concat_iff.mp mark).resolve_right noEnd
        have left : text.drop (origin + (read.length + 1)) = rest := by
          rw [← List.drop_drop, body, ← List.drop_drop, List.drop_left]
          rfl
        rw [if_pos ((hear_ended_iff noEnd).mpr mark), if_pos ((hear_ended_iff noEnd).mpr mark)]
        exact ⟨_, CommentKind.endsAt_of_firstMark body noEnd isLast, left.symm⟩
      · rw [List.append_cons] at body
        rw [hear_having mark, if_neg Bool.false_ne_true, if_neg Bool.false_ne_true]
        exact inductionHypothesis body mark

/-- A comment that has just been opened ends at the first end mark. -/
theorem endsAt_opened
    (kind : CommentKind) (text : Text) (origin : Nat) :
    ∃ stop,
      kind.EndsAt text origin (!((opened kind).afterHearing (text.drop origin)).isOpen) stop ∧
        (opened kind).remaining (text.drop origin) = text.drop stop := by
  have noEnd : ¬kind.endMark <:+: [] := by
    rw [List.infix_nil]
    cases kind <;> exact List.cons_ne_nil _ _
  cases kind <;> exact endsAt_having _ rfl noEnd

end Comment

/-! ## Skipping and reading -/

namespace State

/-- Whether the next construct of a state is the start of a comment. -/
def StartsComment (state : State) : Prop :=
  ∃ rest kind,
    state.session.rest = '/' :: rest ∧ (state.settle '/').turn '/' rest = .commentStart kind

/-- The state in front of a comment once the statement before the comment is stored. -/
def flushedForComment (state : State) : State :=
  ((state.settle '/').withLineStart false).flush

/-- The statement before a comment is stored, and the comment opened, in one construct. -/
theorem StartsComment.steps
    (closures : Closures) {state : State} {kind : CommentKind}
    (starts : state.StartsComment)
    (opener : commentAt? state.session.rest = some kind) :
    Steps closures state
      ((state.flushedForComment.withRest (state.session.rest.drop 2)).withComment
        (.opened kind)) := by
  obtain ⟨rest, turnKind, text, turn⟩ := starts
  have sameKind : turnKind = kind := by
    have opened := commentAt?_of_turn turn
    rw [text, opened] at opener
    exact Option.some.inj opener
  subst sameKind
  refine steps_iff.mpr ⟨'/', rest, text, ?_⟩
  unfold advance
  dsimp only
  rw [turn, text]
  rfl

end State

/-- Wherever a comment is opened, skipping it in one go and reading it character by character stop
at the same place: behind the first end mark at least two characters further on, or at the end of a
text without one.  Reading stores the statement before the comment, hears nothing but the comment up
to that place, and leaves it closed with nothing heard exactly when an end mark was found. -/
theorem comment_skipped_as_read
    (text : Text) (start : Nat) (kind : CommentKind)
    (opener : commentAt? (text.drop start) = some kind) :
    ∃ found stop,
      kind.EndsAt text (start + 2) found stop ∧ stop ≤ text.length ∧
        afterComment? (text.drop start) = some (text.drop stop) ∧
          ∀ (closures : Closures) (state : State),
            state.session.rest = text.drop start → state.StartsComment →
              ∃ entered comment,
                State.Steps closures state entered ∧
                  entered.session.comment = .opened kind ∧
                  State.HearsTo closures entered
                    (((state.flushedForComment.withRest (text.drop stop)).withComment
                      comment).withLineStart found) ∧
                  (comment = .closed ↔ found = true) ∧
                  (comment.isOpen = true ↔ found = false) := by
  obtain ⟨stop, ends, left⟩ := Comment.endsAt_opened kind text (start + 2)
  generalize lastShape : (Comment.opened kind).afterHearing (text.drop (start + 2)) = last
    at ends
  refine ⟨!last.isOpen, stop, ends, ends.stop_le, ?_, fun closures state place starts => ?_⟩
  · rw [afterComment?, opener, Option.map_some, List.drop_drop, left]
  · have body : state.session.rest.drop 2 = text.drop (start + 2) := by
      rw [place, List.drop_drop]
    let entered :=
      (state.flushedForComment.withRest (text.drop (start + 2))).withComment (.opened kind)
    have steps : State.Steps closures state entered := by
      have opens := starts.steps closures (place ▸ opener)
      rwa [body] at opens
    have isOpen : entered.session.comment.isOpen = true := rfl
    have lineGoesOn : entered.frame.lineStart = false :=
      congrArg (fun body => body.frame.lineStart)
        (State.lexical_flush ((state.settle '/').withLineStart false))
    have hears := State.hearsTo_afterComment closures isOpen
    have remaining : entered.session.comment.remaining entered.session.rest = text.drop stop := left
    have heard : entered.session.comment.afterHearing entered.session.rest = last := lastShape
    rw [remaining, heard, lineGoesOn, Bool.false_or] at hears
    refine ⟨entered, last, steps, rfl, hears, ?_, ?_⟩
    · rw [← heard, Comment.afterHearing_eq_closed_iff isOpen, Bool.not_eq_true']
    · rw [Bool.not_eq_false']

/-- The slash that ends the opener of a block comment is no part of its end mark.  A value that
waits for its line end is stored before the comment. -/
theorem comment_skipped_as_read_overlapping :
    let text := "a 1/*/x**/b".toList
    let state :=
      State.readOn Closures.standard 3 (State.start (Session.ofText text false {}) {} true)
    commentAt? (text.drop 3) = some .block ∧
      state.session.rest = text.drop 3 ∧ state.StartsComment ∧
      afterComment? (text.drop 3) = some ['b'] ∧
      ∃ entered,
        State.Steps Closures.standard state entered ∧
          State.HearsTo Closures.standard entered
            (((state.flushedForComment.withRest ['b']).withComment .closed).withLineStart true) ∧
          state.flushedForComment.frame.entries = [("a".toList, .text ['1'])] := by
  intro text state
  have opener : commentAt? (text.drop 3) = some .block := by decide
  have place : state.session.rest = text.drop 3 := by decide +kernel
  have starts : state.StartsComment := ⟨text.drop 4, .block, place, by decide +kernel⟩
  have body : text.drop 5 = "/x**".toList ++ '/' :: ['b'] := rfl
  have mark : CommentKind.block.EndsAt text 5 true 10 :=
    CommentKind.endsAt_of_firstMark body (by decide) (by decide)
  obtain ⟨found, stop, ends, _, skipped, read⟩ := comment_skipped_as_read text 3 .block opener
  obtain ⟨rfl, rfl⟩ := mark.unique ends
  obtain ⟨entered, comment, steps, _, hears, closes, _⟩ :=
    read Closures.standard state place starts
  rw [closes.mpr rfl] at hears
  exact ⟨opener, place, starts, skipped, entered, steps, hears, by decide +kernel⟩

end GradleScript
