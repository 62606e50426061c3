import GradleScript.Text.Basic

namespace GradleScript

/-!
# Similar words

Two words are similar when much of them matches: the longest block they share, and then what
matches before and after it.  The similarity is the share of matched characters among all
characters of both words.
-/

/-- The length of the longest beginning that two texts share. -/
def sharedStart : Text → Text → Nat
  | first :: firstRest, second :: secondRest =>
      if first == second then
        sharedStart firstRest secondRest + 1
      else
        0
  | _, _ =>
      0

/-- A block that two texts share: where it starts in each, and how long it is. -/
structure SharedBlock where
  first : Nat := 0
  second : Nat := 0
  length : Nat := 0
  deriving Repr, DecidableEq

/-- The longest block that two texts share, the earliest one when there are several. -/
def longestBlock (first second : Text) : SharedBlock :=
  let starts := (List.range first.length).flatMap fun i =>
    (List.range second.length).map fun j =>
      (⟨i, j, sharedStart (first.drop i) (second.drop j)⟩ : SharedBlock)
  starts.foldl (fun best block => if best.length < block.length then block else best) {}

/-- The number of matched characters of two texts, in at most `depth` nested blocks. -/
def matchedWithin : Nat → Text → Text → Nat
  | 0, _, _ =>
      0
  | depth + 1, first, second =>
      let block := longestBlock first second
      if block.length == 0 then
        0
      else
        matchedWithin depth (first.take block.first) (second.take block.second) + block.length +
          matchedWithin depth (first.drop (block.first + block.length))
            (second.drop (block.second + block.length))

/-- The number of matched characters of two texts. -/
def matched (first second : Text) : Nat :=
  matchedWithin first.length first second

/-- Whether at least three fifths of the characters of two texts are matched.  Of each text no more
characters are matched than the shorter one has, which settles most cases. -/
def isSimilar (first second : Text) : Bool :=
  let enough := 3 * (first.length + second.length)
  enough ≤ 10 * min first.length second.length && enough ≤ 10 * matched first second

/-- The words of a list that are similar to a given one, in the order of the list. -/
def similarWords (word : Text) (words : List Text) : List Text :=
  words.filter fun other => isSimilar other word

end GradleScript
