import GradleScript.Proofs.Script.Ending
import GradleScript.Proofs.Simulation.Returns
import Mathlib.Data.List.Infix

namespace GradleScript

/-!
# Line ends of either form

A script denotes the same, and leaves the same variables, whether its lines end with a line feed
or with a carriage return and a line feed.  Only what is kept with its text would show the
carriage returns: an array literal, and a call in the block of repositories, that goes over more
than one line.
-/

namespace State

/-- Whether every call that reading on from a state keeps with its text stands on one line. -/
def KeepsLineCalls (closures : Closures) (state : State) : Prop :=
  ∀ later rest,
    Reaches closures state later →
      later.session.rest = '(' :: rest →
        (later.settle '(').turn '(' rest = .call →
          (later.settle '(').frame.KeepsCall →
            '\n' ∉ parentheses.taken ('(' :: rest)

/-- A text that does not contain the key of the repositories, and no name of which is read, keeps no
call. -/
theorem keepsLineCalls_of_unread
    {text : Text} {restricted : Bool}
    (unread : NamesUnread text restricted)
    (noRepositories : ¬Closures.repositoriesKey <:+: text)
    (journal : Journal) (wholeScript : Bool) :
    KeepsLineCalls Closures.standard
      (start (Session.ofText text restricted journal) {} wholeScript) :=
  fun _ _ reaches _ _ keepsCall =>
    (reaches.discardsCalls_of_unread unread noRepositories keepsCall).elim

end State

namespace Script

/--
Carriage returns before the line ends of a text do not matter: with them it denotes the same and
leaves the same variables, with whatever variables the pass begins, restricted or not.  Every
opening bracket is followed by a closing one on its line, and no call that is kept, as calls are
in the block of repositories, takes in a line end.
-/
theorem parse_withReturns
    (text : Text)
    (restricted : Bool)
    (journal : Journal)
    (arraysEnd :
      ∀ before rest, text = before ++ '[' :: rest → ']' ∈ rest.takeWhile fun ch => ch != '\n')
    (callsOnLines :
      State.KeepsLineCalls Closures.standard
        (State.start (Session.ofText text restricted journal) {} true)) :
    (parse Closures.standard restricted journal (withReturns text)).1 =
        (parse Closures.standard restricted journal text).1 ∧
      (parse Closures.standard restricted journal (withReturns text)).2.table =
        (parse Closures.standard restricted journal text).2.table := by
  let first := State.start (Session.ofText text restricted journal) {} true
  let second := State.start (Session.ofText (withReturns text) restricted journal) {} true
  have alike : State.Alike Returned first second := ⟨.whole text, rfl, rfl⟩
  have keeps (state : State) (ch : Char) (rest : Text)
      (reaches : State.Reaches Closures.standard first state)
      (place : state.session.rest = ch :: rest) :
      State.KeepsLine Closures.standard (state.settle ch).frame (ch :: rest)
        ((state.settle ch).turn ch rest) := by
    have inText : ch :: rest <:+ text := place ▸ reaches.rest_suffix
    cases turn : (state.settle ch).turn ch rest with
    | call =>
        obtain rfl := State.eq_of_turn_call turn
        exact callsOnLines state rest reaches place turn
    | array =>
        obtain rfl := State.eq_of_turn_array turn
        obtain ⟨before, shape⟩ := inText
        exact arraysEnd before rest shape.symm
    | blockStart =>
        intro isArray
        rw [Closures.find?_standard] at isArray
        split at isArray <;> cases isArray
    | _ =>
        trivial
  have same := alike.outcome_run_withReturns rfl rfl keeps
  obtain ⟨sameMapping, sameTable⟩ := Prod.mk.inj same
  exact ⟨sameMapping, sameTable⟩

/-- A declaration, a comment, a name that is given up, a name and a list, each before the end of a
line. -/
theorem parse_withReturns_constructs :
    let text := "def d\n/* e\n*/ f $\x7bg\nh [1] // i\next \x7b\n v \"$g\"\n\x7d".toList
    let journal : Journal := ⟨⟨[("g".toList, .text "z".toList)]⟩, []⟩
    (∀ before rest,
        text = before ++ '[' :: rest → ']' ∈ rest.takeWhile fun ch => ch != '\n') ∧
      State.KeepsLineCalls Closures.standard
        (State.start (Session.ofText text false journal) {} true) ∧
      (parse Closures.standard false journal (withReturns text)).1 =
          (parse Closures.standard false journal text).1 ∧
        (parse Closures.standard false journal (withReturns text)).2.table =
          (parse Closures.standard false journal text).2.table := by
  intro text journal
  have lines :
      ∀ tail ∈ text.tails,
        tail.head? = some '[' → ']' ∈ tail.tail.takeWhile fun ch => ch != '\n' := by
    decide
  have arraysEnd (before rest : Text) (shape : text = before ++ '[' :: rest) :
      ']' ∈ rest.takeWhile fun ch => ch != '\n' :=
    lines ('[' :: rest) ((List.mem_tails _ _).mpr ⟨before, shape.symm⟩) rfl
  have noParenthesis : '(' ∉ text := by decide
  have callsOnLines :
      State.KeepsLineCalls Closures.standard
        (State.start (Session.ofText text false journal) {} true) := by
    intro later rest reaches place
    have inText : '(' :: rest <:+ text := place ▸ reaches.rest_suffix
    exact (noParenthesis (inText.subset List.mem_cons_self)).elim
  exact ⟨arraysEnd, callsOnLines, parse_withReturns text false journal arraysEnd callsOnLines⟩

/-- Where an interpolated name opens the block of repositories, a call that goes over two lines in
it is kept with its carriage return. -/
theorem parse_withReturns_interpolatedKey :
    let text := "$a \x7b\nb(\n)\n\x7d".toList
    let journal : Journal := ⟨⟨[("a".toList, .text Closures.repositoriesKey)]⟩, []⟩
    ¬Closures.repositoriesKey <:+: text ∧
      (∀ before rest,
        text = before ++ '[' :: rest → ']' ∈ rest.takeWhile fun ch => ch != '\n') ∧
      (parse Closures.standard false journal (withReturns text)).1 ≠
        (parse Closures.standard false journal text).1 := by
  intro text journal
  have noRepositories : ¬Closures.repositoriesKey <:+: text := fun piece =>
    absurd (piece.subset (by decide : 's' ∈ Closures.repositoriesKey)) (by decide)
  have noBracket (before rest : Text) (shape : text = before ++ '[' :: rest) :
      ']' ∈ rest.takeWhile fun ch => ch != '\n' := by
    have member : '[' ∈ text := shape ▸ List.mem_append_right before List.mem_cons_self
    exact absurd member (by decide)
  have withLineFeeds :
      (parse Closures.standard false journal text).1 =
        [(Closures.repositoriesKey,
          .list [.repository bareRepositoryKind [("name".toList, .text "b(\n)".toList)]])] :=
    (State.mapping_run_of_readOn 10 (by decide +kernel) (by decide +kernel)
      (List.isEmpty_iff.mp (by decide +kernel))).trans (by decide +kernel)
  have withBoth :
      (parse Closures.standard false journal (withReturns text)).1 =
        [(Closures.repositoriesKey,
          .list [.repository bareRepositoryKind [("name".toList, .text "b(\r\n)".toList)]])] :=
    (State.mapping_run_of_readOn 12 (by decide +kernel) (by decide +kernel)
      (List.isEmpty_iff.mp (by decide +kernel))).trans (by decide +kernel)
  refine ⟨noRepositories, noBracket, ?_⟩
  rw [withLineFeeds, withBoth]
  simp

end Script

end GradleScript
