import GradleScript.Proofs.Block.Pieces

namespace GradleScript

/-!
# Scans that read no names

Outside `dependencies` a restricted scan reads no names, and a text without a dollar sign has
none.  Along such a scan every place is outside names, and everything that goes by a name is
written in the text.
-/

namespace State

/-- A step neither restricts a scan nor frees it. -/
theorem Steps.restricted_eq
    {closures : Closures} {state next : State}
    (steps : Steps closures state next) :
    next.session.interpolation.restricted = state.session.interpolation.restricted := by
  obtain ⟨ch, rest, _, movement⟩ := steps.movement
  cases movement with
  | within surroundings =>
      exact congrArg (fun body => body.session.interpolation.restricted) surroundings
  | into opening entering =>
      obtain ⟨waiting, _, _, enteredShape⟩ := entering.around
      exact congrArg (fun body => body.session.interpolation.restricted) enteredShape
  | @outOf suspended outer closing around =>
      have resumed :=
        congrArg (fun body => body.session.interpolation.restricted)
          (lexical_resume (state.closedAt ch rest) suspended outer)
      have closed :=
        congrArg (fun body => body.session.interpolation.restricted)
          (surroundings_closedAt state ch rest)
      refine resumed.trans (Eq.trans ?_ closed)
      cases suspended.opening <;> rfl

/-- A run neither restricts a scan nor frees it. -/
theorem Reaches.restricted_eq
    {closures : Closures} {state later : State}
    (reaches : Reaches closures state later) :
    later.session.interpolation.restricted = state.session.interpolation.restricted := by
  induction reaches with
  | refl =>
      rfl
  | tail _ steps inductionHypothesis =>
      exact (Steps.restricted_eq steps).trans inductionHypothesis

end State

/-- Whether no name of a text is read, in a scan that is restricted or not: there is none, or the
scan keeps to blocks that the text does not have. -/
def NamesUnread (text : Text) (restricted : Bool) : Prop :=
  '$' ∉ text ∨ restricted = true ∧ ¬dependenciesKey <:+: text

/-- No name of a part of a text is read in a restricted scan, where none of the text is read. -/
theorem NamesUnread.of_infix
    {text part : Text} {restricted : Bool}
    (unread : NamesUnread text restricted)
    (inText : part <:+: text) :
    NamesUnread part true :=
  unread.imp (fun noDollar member => noDollar (inText.subset member))
    fun outside => ⟨rfl, fun inPart => outside.2 (inPart.trans inText)⟩

namespace State

/-- At the beginning of a text everything is written in it. -/
theorem writtenIn_start
    (text : Text) (restricted : Bool) (journal : Journal) (mode : Mode) (wholeScript : Bool) :
    (start (Session.ofText text restricted journal) mode wholeScript).WrittenIn text where
  stands := .of_empty rfl List.suffix_rfl
  keys := fun _ member => nomatch member
  waits := fun _ member => nomatch member
  noName := rfl

/-- Where no name of a text is read, a state in whose surroundings everything is written in the text
has no place where a name begins. -/
theorem dollarIsPlain_of_namesUnread
    {text : Text} {state : State} {ch : Char} {rest : Text}
    (unread : NamesUnread text state.session.interpolation.restricted)
    (inContext : state.InContext false)
    (keys : ∀ opening ∈ state.openings, opening.key <:+: text)
    (left : state.session.rest <:+ text)
    (place : state.session.rest = ch :: rest) :
    state.DollarIsPlain ch := by
  intro isDollar
  rcases unread with noDollar | ⟨restricted, noDependencies⟩
  · have member : ch ∈ text := left.subset (place ▸ List.mem_cons_self)
    exact (noDollar (isDollar ▸ member)).elim
  · have outside : state.session.interpolation.inDependencies = false := by
      rw [inContext.context, ← Bool.not_eq_true, contextInside_iff]
      rintro (initially | ⟨remembered, member⟩)
      · cases initially
      · exact noDependencies (keys _ member)
    simp [Interpolation.allowed, restricted, outside]

/-- Along a scan that reads no names everything is written in the text, and no name begins. -/
theorem Reaches.writtenIn_of_unread
    {closures : Closures} {text : Text} {restricted : Bool} {journal : Journal} {mode : Mode}
    {wholeScript : Bool} {later : State}
    (unread : NamesUnread text restricted)
    (reaches :
      Reaches closures (start (Session.ofText text restricted journal) mode wholeScript) later) :
    later.WrittenIn text ∧ later.Nameless := by
  let first := start (Session.ofText text restricted journal) mode wholeScript
  have startContext : first.InContext false := ⟨rfl, trivial⟩
  have dollar (middle : State) (reached : Reaches closures first middle)
      (written : middle.WrittenIn text) (ch : Char) (rest : Text)
      (place : middle.session.rest = ch :: rest) :
      middle.DollarIsPlain ch := by
    have sameRestriction : middle.session.interpolation.restricted = restricted :=
      reached.restricted_eq
    exact dollarIsPlain_of_namesUnread (sameRestriction ▸ unread)
      (reached.inContext startContext) written.keys written.stands.rest place
  have written :=
    reaches.writtenIn (writtenIn_start text restricted journal mode wholeScript) dollar
  exact ⟨written, written.noName, dollar later reaches written⟩

end State

end GradleScript
