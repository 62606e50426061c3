import GradleScript.Proofs.Simulation.Replaying
import GradleScript.Proofs.Simulation.Unread
import GradleScript.Script

namespace GradleScript

/-!
# What does not depend on the variables

Outside `dependencies` a restricted scan reads no names, and a text without a dollar sign has none.
Then nothing depends on the variables that a pass begins with: it denotes the same, writes the same
values under the same names in the same order, and looks nothing up.
-/

namespace Script

/-- A pass that reads no name replays, over the journal that it begins with, what a pass without
variables does. -/
theorem parse_eq_onto
    (closures : Closures)
    {text : Text} {restricted : Bool}
    (unread : NamesUnread text restricted)
    (journal : Journal) :
    ∃ mapping news,
      news.NoLookups ∧
        parse closures true {} text = (mapping, news) ∧
          parse closures restricted journal text = (mapping, news.onto journal) := by
  let first := State.start (Session.ofText text true {}) {} true
  let second := State.start (Session.ofText text restricted journal) {} true
  have simulation := State.simulation_isOver journal restricted
  have storing := State.storeSimulation_isOver journal restricted
  have isOver : State.IsOver journal restricted first second :=
    ⟨rfl, fun _ member => nomatch member⟩
  have unreadThere : NamesUnread text true := by
    rcases unread with noDollar | ⟨_, noDependencies⟩
    · exact .inl noDollar
    · exact .inr ⟨rfl, noDependencies⟩
  have startContext : first.InContext false := ⟨rfl, trivial⟩
  have nameless (middle other : State) (reaches : State.Reaches closures first middle)
      (stillOver : State.IsOver journal restricted middle other) :
      middle.Nameless ∧ other.Nameless := by
    obtain ⟨written, isNameless⟩ := State.Reaches.writtenIn_of_unread unreadThere reaches
    refine ⟨isNameless, ?_⟩
    obtain ⟨rfl, _⟩ := stillOver
    refine ⟨written.noName, ?_⟩
    intro ch rest place
    have context := reaches.inContext startContext
    have otherContext : (middle.onto journal restricted).InContext false :=
      ⟨context.context, context.remembered⟩
    exact State.dollarIsPlain_of_namesUnread unread otherContext written.keys written.stands.rest
      place
  have whole : first.wholeScript = true := rfl
  obtain ⟨last, reaches, atEnd⟩ := State.exists_reaches_end closures whole
  obtain ⟨other, otherReaches, lastOver, _⟩ := simulation.reaches isOver rfl nameless reaches
  have otherAtEnd : other.session.rest = [] := (simulation.rest lastOver).symm.trans atEnd
  have lastNameless := nameless last other reaches lastOver
  obtain ⟨final, otherFinal, finalOver, finish, otherFinish⟩ :=
    storing.unwind (simulation.flush lastOver)
  refine ⟨final.frame.entries, final.session.journal, finalOver.noLookups, ?_, ?_⟩
  · have run := State.run_eq_of_reaches_end reaches atEnd
    rw [State.finish_of_noName lastNameless.1.noName, finish] at run
    unfold parse Session.readBody
    rw [run]
  · have run := State.run_eq_of_reaches_end otherReaches otherAtEnd
    rw [State.finish_of_noName lastNameless.2.noName, otherFinish, finalOver.eq] at run
    unfold parse Session.readBody
    rw [run]
    rfl

/-- A whole script is read up to its end. -/
theorem position_readBody
    (closures : Closures) (text : Text) (restricted : Bool) (journal : Journal) :
    ((Session.ofText text restricted journal).readBody closures {} true).1.position =
      text.length := by
  have stands : (Session.ofText text restricted journal).StandsIn text := ⟨rfl, List.suffix_rfl⟩
  obtain ⟨finished, reading⟩ :=
    State.exists_bodyRead closures
      (State.start (Session.ofText text restricted journal) {} true)
  rw [State.readBody_eq_of_bodyRead reading]
  have finishedStands :=
    State.standsIn_of_surroundings reading.surroundings_eq reading.rest_suffix stands
  exact finishedStands.position_eq_length_iff.mpr (reading.rest_of_wholeScript rfl rfl)

/--
Two passes over one text in which no name is read do the same, whatever the variables each begins
with: where the text does not contain `dependencies` and both scans are restricted, and where it
has no dollar sign and the scans are restricted or not.  Both denote the same mapping, end at the
end of the text, and report the same events, so that they make the same writes in the same order
and look nothing up; the variables they leave are those they begin with, with these writes made.
-/
theorem parse_noninterference
    (closures : Closures)
    (text : Text)
    (restricted otherRestricted : Bool)
    (journal otherJournal : Journal)
    (namesUnread :
      restricted = true ∧ otherRestricted = true ∧ ¬dependenciesKey <:+: text ∨ '$' ∉ text) :
    (∃ (mapping : Mapping) (news : Journal),
      parse closures restricted journal text = (mapping, news.onto journal) ∧
        parse closures otherRestricted otherJournal text = (mapping, news.onto otherJournal) ∧
        ∀ event ∈ news.events, event.isLookup = false) ∧
      ((Session.ofText text restricted journal).readBody closures {} true).1.position =
        ((Session.ofText text otherRestricted otherJournal).readBody closures {}
          true).1.position := by
  have unread : NamesUnread text restricted ∧ NamesUnread text otherRestricted := by
    rcases namesUnread with ⟨isRestricted, otherIsRestricted, noDependencies⟩ | noDollar
    · exact ⟨.inr ⟨isRestricted, noDependencies⟩, .inr ⟨otherIsRestricted, noDependencies⟩⟩
    · exact ⟨.inl noDollar, .inl noDollar⟩
  obtain ⟨mapping, news, noLookups, alone, here⟩ := parse_eq_onto closures unread.1 journal
  obtain ⟨otherMapping, otherNews, _, otherAlone, there⟩ :=
    parse_eq_onto closures unread.2 otherJournal
  obtain ⟨rfl, rfl⟩ := Prod.mk.inj (alone.symm.trans otherAlone)
  refine ⟨⟨mapping, news, here, there, noLookups⟩, ?_⟩
  rw [position_readBody, position_readBody]

/-- A scan that knows `v` and one that does not read a name that is not interpolated alike, and a
dependency without a name too, where one of the scans is restricted and the other is not. -/
theorem parse_noninterference_knownAndUnknown :
    let known : Journal := ⟨⟨[("v".toList, .text "1".toList)]⟩, []⟩
    let named := "ext \x7b a \"$v\" \x7d".toList
    let nameless := "dependencies \x7b a 'v' \x7d".toList
    (¬dependenciesKey <:+: named ∧
        ∃ (mapping : Mapping) (news : Journal),
          parse Closures.standard true known named = (mapping, news.onto known) ∧
            parse Closures.standard true {} named = (mapping, news.onto {})) ∧
      '$' ∉ nameless ∧
        ∃ (mapping : Mapping) (news : Journal),
          parse Closures.standard true known nameless = (mapping, news.onto known) ∧
            parse Closures.standard false {} nameless = (mapping, news.onto {}) := by
  intro known named nameless
  -- The key of the block has a letter that the text does not have.
  have noDependencies : ¬dependenciesKey <:+: named := fun piece =>
    absurd (piece.subset (by decide : 'd' ∈ dependenciesKey)) (by decide)
  have noDollar : '$' ∉ nameless := by decide
  obtain ⟨⟨mapping, news, first, second, _⟩, _⟩ :=
    parse_noninterference Closures.standard named true true known {}
      (.inl ⟨rfl, rfl, noDependencies⟩)
  obtain ⟨⟨otherMapping, otherNews, otherFirst, otherSecond, _⟩, _⟩ :=
    parse_noninterference Closures.standard nameless true false known {} (.inr noDollar)
  exact
    ⟨⟨noDependencies, mapping, news, first, second⟩,
      noDollar, otherMapping, otherNews, otherFirst, otherSecond⟩

end Script

end GradleScript
