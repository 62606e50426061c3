import GradleScript.Proofs.Script.Ending
import GradleScript.Proofs.Simulation.Comments

namespace GradleScript

/-!
# Comments

A comment that is read as one, in a script without backslashes, can be replaced by a line end: the
script denotes the same, and leaves the same variables.  What is skipped after a conditional or a
function shows a difference: whitespace is passed over to look for an alternative or a body there,
and a comment is not.
-/

namespace State

/-- Whether reading on from a state comes to a slash that starts a comment of a kind, with this text
after the slash. -/
def EntersComment
    (closures : Closures)
    (state : State)
    (kind : CommentKind)
    (rest : Text) : Prop :=
  ∃ later,
    Reaches closures state later ∧ later.session.rest = '/' :: rest ∧
      (later.settle '/').turn '/' rest = .commentStart kind

/-- Whether reading on from a state comes to where this text is left. -/
def ComesTo (closures : Closures) (state : State) (text : Text) : Prop :=
  ∃ later, Reaches closures state later ∧ later.session.rest = text

end State

namespace Script

/--
Comments do not matter: with a line end in place of a comment that is read as one, a script without
a backslash denotes the same and leaves the same variables, with whatever variables the pass begins,
restricted or not.  Where what comes after the comment is an alternative or begins with a brace, the
line end is read, and not passed over while a conditional or a function before it is skipped.
-/
theorem parse_comment
    (before : Text)
    (mark : Char)
    (body : Text)
    (kind : CommentKind)
    (restricted : Bool)
    (journal : Journal)
    (noBackslash : '\\' ∉ before ++ '/' :: mark :: body)
    (entered :
      State.EntersComment Closures.standard
        (State.start (Session.ofText (before ++ '/' :: mark :: body) restricted journal) {} true)
        kind (mark :: body))
    (lineEndRead :
      Continues ((Comment.opened kind).remaining body) →
        State.ComesTo Closures.standard
          (State.start
            (Session.ofText (before ++ '\n' :: (Comment.opened kind).remaining body) restricted
              journal) {} true)
          ('\n' :: (Comment.opened kind).remaining body)) :
    (parse Closures.standard restricted journal
          (before ++ '\n' :: (Comment.opened kind).remaining body)).1 =
        (parse Closures.standard restricted journal (before ++ '/' :: mark :: body)).1 ∧
      (parse Closures.standard restricted journal
          (before ++ '\n' :: (Comment.opened kind).remaining body)).2.table =
        (parse Closures.standard restricted journal (before ++ '/' :: mark :: body)).2.table := by
  generalize remainingShape : (Comment.opened kind).remaining body = remaining at lineEndRead ⊢
  let first :=
    State.start (Session.ofText (before ++ '/' :: mark :: body) restricted journal) {} true
  let second :=
    State.start (Session.ofText (before ++ '\n' :: remaining) restricted journal) {} true
  have seam : Seam ('/' :: mark :: body) ('\n' :: remaining) before :=
    ⟨⟨_, .inl rfl⟩, .inl ⟨_, .inl rfl⟩⟩
  have simulation :=
    State.namingSimulation_alike (SameFront ('/' :: mark :: body) ('\n' :: remaining))
  have alike : State.Alike (SameFront ('/' :: mark :: body) ('\n' :: remaining)) first second :=
    ⟨⟨before, rfl, rfl⟩, rfl, rfl⟩
  have waits : first.Waits := fun _ member => nomatch member
  obtain ⟨later, reaches, atComment, turn⟩ := entered
  rcases State.reaches_seam (fun _ _ related => related.rest) alike rfl
      (fun _ _ reached _ related =>
        simulation.stepsToSeam seam reached.rest_suffix Closures.find?_standard_ne_array related)
      reaches atComment with
    ⟨other, otherReaches, laterAlike⟩ | ⟨continues, passes⟩
  · have fronts := laterAlike.rest
    rw [atComment] at fronts
    have otherText := fronts.eq_of_tail
    rw [← remainingShape] at otherText
    have same : outcome (other.run Closures.standard) = outcome (later.run Closures.standard) :=
      laterAlike.outcome_run_comment (reaches.wholeScript_eq.trans rfl)
        (reaches.comment_tidy fun _ => rfl)
        (reaches.previous_ne waits noBackslash nofun) atComment turn otherText
    rw [← reaches.run_eq, ← otherReaches.run_eq] at same
    obtain ⟨sameMapping, sameTable⟩ := Prod.mk.inj same
    exact ⟨sameMapping, sameTable⟩
  · obtain ⟨atLineEnd, reachesLineEnd, text⟩ := lineEndRead continues
    exact (passes atLineEnd reachesLineEnd text).elim

/-- A comment right after an interpolated name, and before a block without a key. -/
theorem parse_comment_afterName :
    let before := "ext.v = 1\na $v".toList
    let body := " b\n\x7b\nc 'd'\n\x7d".toList
    let journal : Journal := ⟨⟨[("v".toList, .text "2".toList)]⟩, []⟩
    let remaining := (Comment.opened .line).remaining body
    '\\' ∉ before ++ '/' :: '/' :: body ∧
      State.EntersComment Closures.standard
        (State.start (Session.ofText (before ++ '/' :: '/' :: body) false journal) {} true) .line
        ('/' :: body) ∧
      (Continues remaining →
        State.ComesTo Closures.standard
          (State.start (Session.ofText (before ++ '\n' :: remaining) false journal) {} true)
          ('\n' :: remaining)) ∧
      (parse Closures.standard false journal (before ++ '\n' :: remaining)).1 =
          (parse Closures.standard false journal (before ++ '/' :: '/' :: body)).1 ∧
        (parse Closures.standard false journal (before ++ '\n' :: remaining)).2.table =
          (parse Closures.standard false journal (before ++ '/' :: '/' :: body)).2.table := by
  intro before body journal remaining
  have noBackslash : '\\' ∉ before ++ '/' :: '/' :: body := by decide
  have entered :
      State.EntersComment Closures.standard
        (State.start (Session.ofText (before ++ '/' :: '/' :: body) false journal) {} true) .line
        ('/' :: body) :=
    ⟨_, State.reaches_readOn Closures.standard 14 _, by decide +kernel, by decide +kernel⟩
  have lineEndRead (_ : Continues remaining) :
      State.ComesTo Closures.standard
        (State.start (Session.ofText (before ++ '\n' :: remaining) false journal) {} true)
        ('\n' :: remaining) :=
    ⟨_, State.reaches_readOn Closures.standard 14 _, by decide +kernel⟩
  exact
    ⟨noBackslash, entered, lineEndRead,
      parse_comment before '/' body .line false journal noBackslash entered lineEndRead⟩

/-- Behind a branch, a comment ends the conditional, and the line end in its place does not: the
alternative is skipped with the conditional there. -/
theorem parse_comment_beforeElse :
    let before := "if (a) \x7b\x7d\n".toList
    let body := " c\nelse \x7b\nx 1\n\x7d".toList
    '\\' ∉ before ++ '/' :: '/' :: body ∧
      State.EntersComment Closures.standard
        (State.start (Session.ofText (before ++ '/' :: '/' :: body) false {}) {} true) .line
        ('/' :: body) ∧
      (parse Closures.standard false {}
          (before ++ '\n' :: (Comment.opened .line).remaining body)).1 ≠
        (parse Closures.standard false {} (before ++ '/' :: '/' :: body)).1 := by
  intro before body
  have noBackslash : '\\' ∉ before ++ '/' :: '/' :: body := by decide
  have entered :
      State.EntersComment Closures.standard
        (State.start (Session.ofText (before ++ '/' :: '/' :: body) false {}) {} true) .line
        ('/' :: body) :=
    ⟨_, State.reaches_readOn Closures.standard 4 _, by decide +kernel, by decide +kernel⟩
  have withComment :
      (parse Closures.standard false {} (before ++ '/' :: '/' :: body)).1 =
        [("else".toList, .mapping [("x".toList, .text "1".toList)])] :=
    (State.mapping_run_of_readOn 20 (by decide +kernel) (by decide +kernel)
      (List.isEmpty_iff.mp (by decide +kernel))).trans (by decide +kernel)
  have withLineEnd :
      (parse Closures.standard false {}
        (before ++ '\n' :: (Comment.opened .line).remaining body)).1 = [] :=
    (State.mapping_run_of_readOn 3 (by decide +kernel) (by decide +kernel)
      (List.isEmpty_iff.mp (by decide +kernel))).trans (by decide +kernel)
  refine ⟨noBackslash, entered, ?_⟩
  rw [withComment, withLineEnd]
  exact (List.cons_ne_nil _ _).symm

end Script

end GradleScript
