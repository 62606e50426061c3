import GradleScript.Text.Basic

namespace GradleScript

/-!
# Comments

A comment is followed character by character.  A line comment ends with its line; a block comment
ends as soon as the characters heard since its opener contain a star followed by a slash, with no
escape and no nesting.
-/

/-- The two kinds of comment. -/
inductive CommentKind where
  /-- From `//` to the end of the line. -/
  | line
  /-- From a slash and a star to the next star and slash. -/
  | block
  deriving Repr, DecidableEq

/-- The kind of comment that two characters open, when they open one. -/
def commentOpener? : Char → Char → Option CommentKind
  | '/', '/' => some .line
  | '/', '*' => some .block
  | _, _ => none

/-- The kind of comment that starts at the front of a text, if one does. -/
def commentAt? : Text → Option CommentKind
  | first :: second :: _ => commentOpener? first second
  | _ => none

/-- The comment being read, if any, and what has been heard of a block comment, latest first. -/
structure Comment where
  kind : Option CommentKind := none
  heard : Text := []
  deriving Repr, DecidableEq

namespace Comment

/-- Whether a comment is being read. -/
def isOpen (comment : Comment) : Bool :=
  comment.kind.isSome

/-- The text heard since the opener, in reading order. -/
def text (comment : Comment) : Text :=
  comment.heard.reverse

/-- No comment is being read. -/
def closed : Comment :=
  {}

/-- The state just after a comment opener. -/
def opened (kind : CommentKind) : Comment :=
  ⟨some kind, []⟩

/-- Whether a text, given latest character first, contains the end of a block comment. -/
def hasEnd : Text → Bool
  | '/' :: '*' :: _ => true
  | _ :: rest => hasEnd rest
  | [] => false

/--
The state after a further piece of text, and whether that piece ended the comment.  What was heard
before holds no end, so an end lies in the piece or starts with the character just before it.
-/
def hear (comment : Comment) (piece : Text) : Bool × Comment :=
  match comment.kind with
  | some .line =>
      if piece == ['\n'] then
        (true, closed)
      else
        (false, comment)
  | _ =>
      if hasEnd (piece.reverse ++ comment.heard.take 1) then
        (true, closed)
      else
        (false, { comment with heard := piece.reverse ++ comment.heard })

/-- A comment of which only the last character is remembered. -/
def recent (comment : Comment) : Comment :=
  { comment with heard := comment.heard.take 1 }

/-- The last character alone has an effect on whether a further one ends a comment. -/
theorem hear_recent
    (comment : Comment)
    (ch : Char) :
    (comment.recent.hear [ch]).1 = (comment.hear [ch]).1 ∧
      (comment.recent.hear [ch]).2.recent = (comment.hear [ch]).2.recent := by
  have sameKind : comment.recent.kind = comment.kind := rfl
  have sameHeard : comment.recent.heard.take 1 = comment.heard.take 1 := by
    unfold recent
    rw [List.take_take, Nat.min_self]
  unfold hear
  rw [sameKind, sameHeard]
  split
  · split
    · exact ⟨rfl, rfl⟩
    · exact ⟨rfl, by rw [recent, sameHeard]; rfl⟩
  · split
    · exact ⟨rfl, rfl⟩
    · exact ⟨rfl, rfl⟩

/-- What is left after the comment being read; nothing, when the text ends first. -/
def remaining (comment : Comment) : Text → Text
  | [] =>
      []
  | ch :: rest =>
      if (comment.hear [ch]).1 then
        rest
      else
        (comment.hear [ch]).2.remaining rest

/-- A comment ends somewhere in its text. -/
theorem remaining_suffix
    (comment : Comment)
    (text : Text) :
    comment.remaining text <:+ text := by
  induction text generalizing comment with
  | nil =>
      exact List.suffix_rfl
  | cons ch rest inductionHypothesis =>
      unfold remaining
      split
      · exact List.suffix_cons ch rest
      · exact (inductionHypothesis _).trans (List.suffix_cons ch rest)

/-- Comments that differ in nothing but earlier characters end at the same place. -/
theorem remaining_congr
    {comment other : Comment}
    (same : other.recent = comment.recent)
    (text : Text) :
    other.remaining text = comment.remaining text := by
  induction text generalizing comment other with
  | nil =>
      rfl
  | cons ch rest inductionHypothesis =>
      have sameEnd : (other.hear [ch]).1 = (comment.hear [ch]).1 := by
        rw [← (other.hear_recent ch).1, same, (comment.hear_recent ch).1]
      have sameHeard : (other.hear [ch]).2.recent = (comment.hear [ch]).2.recent := by
        rw [← (other.hear_recent ch).2, same, (comment.hear_recent ch).2]
      unfold remaining
      rw [sameEnd, inductionHypothesis sameHeard]

end Comment

/-- What is left after the comment at the front of a text; none when no comment starts there. -/
def afterComment? (text : Text) : Option Text :=
  (commentAt? text).map fun kind => (Comment.opened kind).remaining (text.drop 2)

/-- A comment is skipped forward, by at least its two opening characters. -/
theorem afterComment?_suffix
    {text remaining : Text}
    (skipped : afterComment? text = some remaining) :
    remaining <:+ text ∧ remaining.length < text.length := by
  match text with
  | [] =>
      simp [afterComment?, commentAt?] at skipped
  | [_] =>
      simp [afterComment?, commentAt?] at skipped
  | first :: second :: body =>
      simp only [afterComment?, Option.map_eq_some_iff] at skipped
      obtain ⟨kind, _, rfl⟩ := skipped
      have inBody := (Comment.opened kind).remaining_suffix body
      have inText : body <:+ first :: second :: body := ⟨[first, second], rfl⟩
      refine ⟨inBody.trans inText, ?_⟩
      have bound := inBody.length_le
      simp only [List.drop_succ_cons, List.drop_zero, List.length_cons]
      omega

end GradleScript
