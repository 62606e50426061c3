import GradleScript.Proofs.Script.Ending
import GradleScript.Proofs.Simulation.Sharing
import GradleScript.Script

namespace GradleScript

/-!
# How a variable comes to its value

A variable holds the value that was last written under its name.  One thing more can happen to it:
while a body shares its list, what is added to the list under the key is added to the variable too,
without the variable being written.  So what a variable holds is what was last written, and where
this is a list, the items that have been added to it since.  A variable that shares no list changes
only when it is written.
-/

/-! ## What the events tell of one variable -/

namespace Event

/-- The value that was last written under a name, if one was. -/
def lastWritten (name : Text) : List Event → Option Value
  | [] =>
      none
  | .variableSet other value :: earlier =>
      if other = name then some value else lastWritten name earlier
  | _ :: earlier =>
      lastWritten name earlier

/-- The items that have been added to the list of a variable since it was last written. -/
def grownSince (name : Text) : List Event → List Value
  | [] =>
      []
  | .variableSet other _ :: earlier =>
      if other = name then [] else grownSince name earlier
  | .variableGrown other items :: earlier =>
      if other = name then grownSince name earlier ++ items else grownSince name earlier
  | _ :: earlier =>
      grownSince name earlier

/-- Whether a name is written in some events. -/
def Writes (events : List Event) (name : Text) : Prop :=
  ∃ value, Event.variableSet name value ∈ events

/-- Whether the list of a name is added to in some events. -/
def Grows (events : List Event) (name : Text) : Prop :=
  ∃ items, Event.variableGrown name items ∈ events

end Event

/-- A value with items added to it, where it is a list. -/
def Value.extended (value : Value) (items : List Value) : Value :=
  match value with
  | .list present => .list (present ++ items)
  | other => other

namespace Value

/-- A value stays as it is where nothing is added. -/
theorem extended_nil
    (value : Value) :
    value.extended [] = value := by
  cases value <;> simp [extended]

/-- Items may be added to a value in two parts. -/
theorem extended_append
    (value : Value) (first second : List Value) :
    value.extended (first ++ second) = (value.extended first).extended second := by
  cases value <;> simp [extended]

/-- Items are added to lists alone. -/
theorem extended_of_noList
    {value : Value}
    (noList : value.items? = none)
    (items : List Value) :
    value.extended items = value := by
  cases value <;> first | rfl | cases noList

end Value

namespace Event

/-- What events leave of none under a name is what was last written, with the items added since. -/
theorem get?_told
    (name : Text) (events : List Event) :
    (told events).get? name =
      (lastWritten name events).map fun value => value.extended (grownSince name events) := by
  induction events with
  | nil =>
      rfl
  | cons event earlier inductionHypothesis =>
      have shape : told (event :: earlier) = event.replay (told earlier) := rfl
      rw [shape]
      cases event with
      | variableSet other value =>
          unfold replay lastWritten grownSince
          dsimp only
          rw [Variables.get?_set]
          split
          · rw [Option.map_some, Value.extended_nil]
          · exact inductionHypothesis
      | variableGrown other items =>
          unfold replay lastWritten grownSince
          dsimp only
          by_cases isName : other = name
          · subst isName
            rw [if_pos rfl]
            cases lastShape : lastWritten other earlier with
            | none =>
                rw [lastShape] at inductionHypothesis
                unfold Variables.grow
                rw [inductionHypothesis]
                exact inductionHypothesis
            | some value =>
                rw [lastShape, Option.map_some] at inductionHypothesis
                rw [Option.map_some, Value.extended_append]
                unfold Variables.grow
                rw [inductionHypothesis]
                split
                · next present isList =>
                    rw [Variables.get?_set, if_pos rfl, Option.some.inj isList]
                    rfl
                · next noList =>
                    rw [inductionHypothesis]
                    congr 1
                    cases grown : value.extended (grownSince other earlier) with
                    | list present =>
                        exact (noList present (congrArg some grown)).elim
                    | _ =>
                        rfl
          · rw [if_neg isName, ← inductionHypothesis]
            unfold Variables.grow
            split
            · rw [Variables.get?_set, if_neg isName]
            · rfl
      | _ =>
          exact inductionHypothesis

/-- A name that later events neither write nor add to is as it was. -/
theorem told_append_of_unchanged
    {news earlier : List Event} {name : Text}
    (notWritten : ¬Writes news name)
    (notGrown : ¬Grows news name) :
    (told (news ++ earlier)).get? name = (told earlier).get? name := by
  rw [get?_told, get?_told]
  have unchanged :
      lastWritten name (news ++ earlier) = lastWritten name earlier ∧
        grownSince name (news ++ earlier) = grownSince name earlier := by
    induction news with
    | nil =>
        exact ⟨rfl, rfl⟩
    | cons event news inductionHypothesis =>
        have later := inductionHypothesis
          (fun ⟨value, member⟩ => notWritten ⟨value, List.mem_cons_of_mem _ member⟩)
          (fun ⟨items, member⟩ => notGrown ⟨items, List.mem_cons_of_mem _ member⟩)
        rw [List.cons_append]
        cases event with
        | variableSet other value =>
            have different : other ≠ name := by
              rintro rfl
              exact notWritten ⟨value, List.mem_cons_self⟩
            rw [lastWritten, grownSince, if_neg different, if_neg different]
            exact later
        | variableGrown other items =>
            have different : other ≠ name := by
              rintro rfl
              exact notGrown ⟨items, List.mem_cons_self⟩
            have grown : grownSince name (.variableGrown other items :: (news ++ earlier)) =
                grownSince name (news ++ earlier) :=
              if_neg different
            rw [grown]
            exact later
        | _ =>
            exact later
  rw [unchanged.1, unchanged.2]

end Event

/-- A name stands for the same text as long as its variable has the same value. -/
theorem Journal.resolve_congr
    {first second : Journal} {name : Text}
    (same : first.table.get? name = second.table.get? name)
    (fallback : Text) :
    (first.resolve name fallback).1 = (second.resolve name fallback).1 := by
  unfold resolve
  rw [same]
  split <;> rfl

/-! ## Where a list that grows comes from -/

namespace State

/-- Whether the lists that are shared, or that events since an earlier state have added to, were
shared there already, or have been written since. -/
structure Accounts (base : State) (news : List Event) (state : State) : Prop where
  events : state.session.journal.events = news ++ base.session.journal.events
  names :
    ∀ name, name ∈ state.sharedNames ∨ Event.Grows news name →
      name ∈ base.sharedNames ∨ Event.Writes news name

/-- Whether an earlier state accounts for every list that is shared or has grown since. -/
def SharesFrom (base state : State) : Prop :=
  ∃ news, Accounts base news state

namespace Accounts

variable {base state : State} {news : List Event}

/-- To share fewer lists takes no more to account for. -/
theorem of_fewer
    (accounts : Accounts base news state)
    {next : State}
    (sameEvents : next.session.journal.events = state.session.journal.events)
    (fewer : ∀ name ∈ next.sharedNames, name ∈ state.sharedNames) :
    Accounts base news next :=
  ⟨sameEvents.trans accounts.events, fun name => accounts.names name ∘ Or.imp_left (fewer name)⟩

/-- One more event is accounted for, if it adds to a list that is shared or to none. -/
theorem tell
    (accounts : Accounts base news state)
    {next : State} {event : Event}
    (events : next.session.journal.events = event :: state.session.journal.events)
    (sharesNoMore : ∀ name ∈ next.sharedNames, name ∈ state.sharedNames)
    (growsShared : ∀ name items, event = .variableGrown name items → name ∈ state.sharedNames) :
    Accounts base (event :: news) next := by
  refine ⟨events.trans (congrArg _ accounts.events), ?_⟩
  intro name sharedOrGrown
  have before : name ∈ state.sharedNames ∨ Event.Grows news name := by
    rcases sharedOrGrown with isShared | ⟨items, member⟩
    · exact .inl (sharesNoMore name isShared)
    · rcases List.mem_cons.mp member with isFirst | isEarlier
      · exact .inl (growsShared name items isFirst.symm)
      · exact .inr ⟨items, isEarlier⟩
  exact (accounts.names name before).imp_right fun ⟨value, member⟩ =>
    ⟨value, List.mem_cons_of_mem _ member⟩

/-- A variable that has been written may share its list. -/
theorem share
    (accounts : Accounts base news state)
    {key : Text}
    (written : stripExt key ≠ [] → Event.Writes news (stripExt key)) :
    Accounts base news (state.share key) := by
  unfold State.share
  split
  · exact accounts
  · next isNamed =>
      refine ⟨accounts.events, ?_⟩
      rintro name (isShared | isGrown)
      · rcases List.mem_cons.mp isShared with isKey | isEarlier
        · rw [isKey]
          exact .inr (written (by simpa using isNamed))
        · exact accounts.names name (.inl isEarlier)
      · exact accounts.names name (.inr isGrown)

end Accounts

/-- A variable that is written comes to share no list. -/
theorem mem_sharedNames_of_setVariable
    {state : State} {name other : Text} {value : Value}
    (member : other ∈ (state.setVariable name value).sharedNames) :
    other ∈ state.sharedNames := by
  have names : (state.setVariable name value).sharedNames =
      state.sharedNames.filter fun other => other != stripExt name :=
    sharedNames_unshare state (stripExt name)
  rw [names] at member
  exact (List.mem_filter.mp member).1

namespace SharesFrom

variable {base state : State}

/-- A state accounts for the lists that it shares. -/
theorem refl (base : State) : SharesFrom base base := by
  refine ⟨[], rfl, ?_⟩
  rintro name (isShared | ⟨items, member⟩)
  · exact .inl isShared
  · cases member

/-- With the same journal, a state that shares no more lists is accounted for as well. -/
theorem of_fewer
    (sharesFrom : SharesFrom base state)
    {next : State}
    (sameJournal : next.session.journal = state.session.journal)
    (fewer : ∀ name ∈ next.sharedNames, name ∈ state.sharedNames) :
    SharesFrom base next := by
  obtain ⟨news, accounts⟩ := sharesFrom
  exact ⟨news, accounts.of_fewer (congrArg Journal.events sameJournal) fewer⟩

/-- An event that is no write needs no account. -/
theorem report
    (sharesFrom : SharesFrom base state)
    {event : Event}
    (noWrite : event.isWrite = false) :
    SharesFrom base (state.withJournal (state.session.journal.report event)) := by
  obtain ⟨news, accounts⟩ := sharesFrom
  refine ⟨event :: news, accounts.tell rfl (fun _ isShared => isShared) ?_⟩
  rintro name items rfl
  cases noWrite

/-- Writing a variable accounts for its list to be shared. -/
theorem exists_setVariable
    (sharesFrom : SharesFrom base state)
    (name : Text) (value : Value) :
    ∃ news,
      Accounts base news (state.setVariable name value) ∧
        (stripExt name ≠ [] → Event.Writes news (stripExt name)) := by
  obtain ⟨news, accounts⟩ := sharesFrom
  have journal :
      (state.setVariable name value).session.journal = state.session.journal.set name value :=
    rfl
  unfold Journal.set at journal
  dsimp only at journal
  split at journal
  · next unnamed =>
      refine ⟨news, accounts.of_fewer (congrArg Journal.events journal) ?_, ?_⟩
      · exact fun _ => mem_sharedNames_of_setVariable
      · intro named
        simp [named] at unnamed
  · refine ⟨.variableSet (stripExt name) value :: news,
      accounts.tell (congrArg Journal.events journal) ?_ ?_, ?_⟩
    · exact fun _ => mem_sharedNames_of_setVariable
    · exact fun _ _ isGrown => nomatch isGrown
    · exact fun _ => ⟨value, List.mem_cons_self⟩

/-- Writing a variable shares no list and lets none grow. -/
theorem setVariable
    (sharesFrom : SharesFrom base state)
    (name : Text) (value : Value) :
    SharesFrom base (state.setVariable name value) := by
  obtain ⟨news, accounts, _⟩ := sharesFrom.exists_setVariable name value
  exact ⟨news, accounts⟩

/-- Writing several variables shares no list and lets none grow. -/
theorem setVariables
    (sharesFrom : SharesFrom base state)
    (entries : Mapping) :
    SharesFrom base (state.setVariables entries) := by
  unfold State.setVariables
  induction entries generalizing state with
  | nil =>
      exact sharesFrom
  | cons entry entries inductionHypothesis =>
      exact inductionHypothesis (sharesFrom.setVariable entry.1 entry.2)

/-- A variable may share its list where it has just been written. -/
theorem share_setVariable
    (sharesFrom : SharesFrom base state)
    (name : Text) (value : Value) :
    SharesFrom base ((state.setVariable name value).share name) := by
  obtain ⟨news, accounts, written⟩ := sharesFrom.exists_setVariable name value
  exact ⟨news, accounts.share written⟩

/-- A list grows where it is shared, and what is shared is accounted for. -/
theorem growShared
    (sharesFrom : SharesFrom base state)
    (key : Text) (items : List Value) :
    SharesFrom base (state.growShared key items) := by
  unfold State.growShared
  split
  · next isShared =>
      obtain ⟨news, accounts⟩ := sharesFrom
      have keyShared : stripExt key ∈ state.sharedNames :=
        List.mem_append_left _ (List.mem_map_of_mem (List.contains_iff_mem.mp isShared))
      refine ⟨.variableGrown (stripExt key) items :: news,
        accounts.tell rfl (fun _ isShared => isShared) ?_⟩
      rintro name otherItems isGrown
      cases isGrown
      exact keyShared
  · exact sharesFrom

/-- Entries are stored without sharing a list. -/
theorem withEntries
    (sharesFrom : SharesFrom base state)
    (entries : Mapping) :
    SharesFrom base (state.withEntries entries) :=
  sharesFrom.of_fewer rfl fun _ isShared => isShared

/-- A value is added to a list where the list is shared, and what is shared is accounted for. -/
theorem addEntry
    (sharesFrom : SharesFrom base state)
    (key : Text) (value : Value) :
    SharesFrom base (state.addEntry key value) :=
  (sharesFrom.withEntries _).growShared key [value]

/-- A list is recorded under its key and its variable once the variable has been written. -/
theorem record
    (sharesFrom : SharesFrom base state)
    (key : Text) (value : Value) :
    SharesFrom base (state.record key value) := by
  have added := sharesFrom.addEntry key value
  unfold State.record
  dsimp only
  split
  · split
    · exact added.share_setVariable key value
    · exact added.setVariable key value
  · exact added

/-- A key that gets a value of its own ends its sharing and begins none. -/
theorem putOwn
    (sharesFrom : SharesFrom base state)
    (key : Text) (value : Value) :
    SharesFrom base
      ((state.withEntries (state.frame.entries.put key value)).dropShared key) := by
  refine sharesFrom.of_fewer rfl ?_
  intro name isShared
  rcases List.mem_append.mp isShared with isHere | isAround
  · exact List.mem_append_left _ ((List.filter_sublist.map stripExt).subset isHere)
  · exact List.mem_append_right _ isAround

/-- A closure is added to a list that is accounted for, or ends a sharing. -/
theorem storeClosure
    (sharesFrom : SharesFrom base state)
    (key : Text) (value : Value) :
    SharesFrom base (state.storeClosure key value) := by
  unfold State.storeClosure
  split
  · exact (sharesFrom.withEntries _).growShared key _
  · exact sharesFrom.putOwn key _

/-- A block ends the sharing of its key, and its entries are written as variables. -/
theorem storeBlock
    (sharesFrom : SharesFrom base state)
    (key : Text) (nested : Mapping) :
    SharesFrom base (state.storeBlock key nested) := by
  have stored := sharesFrom.putOwn key
    (Mapping.mergeValue (state.frame.entries.get? key) (.mapping nested))
  unfold State.storeBlock
  dsimp only
  split
  · exact (stored.setVariables _).report rfl
  · exact stored

/-- Extra properties share their lists with variables that have just been written. -/
theorem setExtVariables
    (sharesFrom : SharesFrom base state)
    (entries : Mapping) :
    SharesFrom base (state.setExtVariables entries) := by
  unfold State.setExtVariables
  generalize Journal.extEntries entries = marked
  induction marked generalizing state with
  | nil =>
      exact sharesFrom
  | cons entry marked inductionHypothesis =>
      rw [List.foldl_cons]
      apply inductionHypothesis
      dsimp only
      split
      · exact sharesFrom.share_setVariable entry.1 entry.2
      · exact sharesFrom.setVariable entry.1 entry.2

/-- The body around a finished one may share what both have shared. -/
theorem mergeAnonymous
    {around : State}
    (sharesFrom : SharesFrom base state)
    (sameJournal : around.session.journal = state.session.journal)
    (names : state.sharedNames = state.frame.sharedNames ++ around.sharedNames) :
    SharesFrom base (around.mergeAnonymous state.frame) := by
  have merged :
      SharesFrom base
        ((around.withEntries (Mapping.merge around.frame.entries state.frame.entries)).withShared
          ((around.frame.shared.filter fun key => !state.frame.entries.contains key) ++
            state.frame.shared)) := by
    refine sharesFrom.of_fewer sameJournal ?_
    intro name isShared
    rw [names]
    rcases List.mem_append.mp isShared with isHere | isAround
    · obtain ⟨key, member, rfl⟩ := List.mem_map.mp isHere
      rcases List.mem_append.mp member with isKept | isNested
      · refine List.mem_append_right _ (List.mem_append_left _ (List.mem_map_of_mem ?_))
        exact (List.mem_filter.mp isKept).1
      · exact List.mem_append_left _ (List.mem_map_of_mem isNested)
    · exact List.mem_append_right _ (List.mem_append_right _ isAround)
  exact merged.setExtVariables state.frame.entries

/-- What a finished body shares was accounted for in it, and it is shared in the body around in its
place. -/
theorem resume
    (sharesFrom : SharesFrom base state)
    {suspended : Suspended} {outer : List Suspended}
    (isAround : state.outer = suspended :: outer) :
    SharesFrom base (state.resume suspended outer) := by
  have names :
      state.sharedNames =
        state.frame.sharedNames ++
          ((state.withFrame suspended.frame).withOuter outer).sharedNames := by
    rw [sharedNames_eq, isAround]
    rfl
  have enclosing : SharesFrom base ((state.withFrame suspended.frame).withOuter outer) := by
    refine sharesFrom.of_fewer rfl ?_
    intro name isShared
    rw [names]
    exact List.mem_append_right _ isShared
  unfold State.resume
  dsimp only
  split
  · exact enclosing.storeClosure _ _
  · exact enclosing.storeClosure _ _
  · next inDependencies _ =>
      have left :
          SharesFrom base
            (((state.withFrame suspended.frame).withOuter outer).inContextOf inDependencies) :=
        enclosing.of_fewer rfl fun _ isShared => isShared
      split
      · exact sharesFrom.mergeAnonymous rfl names
      · exact left.storeBlock _ _

end SharesFrom

/-- Whatever is read, an earlier state accounts for the lists that are shared and have grown. -/
theorem invariant_sharesFrom (base : State) : Invariant (SharesFrom base) where
  congr {first second} sharesFrom sameContents sameJournal := by
    have names (state : State) :
        state.sharedNames =
          (state.frames.map Frame.contents).flatMap fun contents => contents.2.map stripExt := by
      rw [List.flatMap_map]
      rfl
    refine sharesFrom.of_fewer sameJournal ?_
    rw [names second, sameContents, ← names first]
    exact fun _ isShared => isShared
  report event noWrite sharesFrom := sharesFrom.report noWrite
  record key value sharesFrom := sharesFrom.record key value
  storeClosure key value sharesFrom := sharesFrom.storeClosure key value
  suspend opening mode sharesFrom := sharesFrom.of_fewer rfl fun _ isShared => isShared
  resume isAround sharesFrom := sharesFrom.resume isAround

/-! ## The rest of a pass -/

/-- The journals that reading on from a state comes to: those of the places it reaches, and the one
it leaves at the end. -/
inductive LeadsTo (closures : Closures) (state : State) : Journal → Prop where
  | place
      {later : State}
      (reaches : Reaches closures state later) :
      LeadsTo closures state later.session.journal
  | finished : LeadsTo closures state (state.run closures).1.journal

/-- What is invariant holds of a state with the journal that reading on comes to. -/
theorem LeadsTo.exists_of_invariant
    {closures : Closures} {state : State} {journal : Journal} {holds : State → Prop}
    (leadsTo : state.LeadsTo closures journal)
    (invariant : Invariant holds)
    (held : holds state)
    (whole : state.wholeScript = true) :
    ∃ last : State, holds last ∧ last.session.journal = journal := by
  cases leadsTo with
  | @place later reaches =>
      exact ⟨later, invariant.reaches reaches held, rfl⟩
  | finished =>
      obtain ⟨last, lastHeld, _, run⟩ := invariant.run closures held whole
      exact ⟨last, lastHeld, congrArg (fun read => read.1.journal) run.symm⟩

end State

namespace Script

/-- The journal that some passes, restricted or not, leave one after another. -/
def passes (closures : Closures) (journal : Journal) (texts : List (Bool × Text)) : Journal :=
  texts.foldl (fun left pass => (parse closures pass.1 left pass.2).2) journal

/-- A pass leaves a journal that tells what the variables are, if it begins with one. -/
theorem faithful_parse
    (closures : Closures) (restricted : Bool) {journal : Journal} (text : Text)
    (faithful : journal.Faithful) :
    (parse closures restricted journal text).2.Faithful := by
  have coherent : (State.start (Session.ofText text restricted journal) {} true).Coherent :=
    State.coherent_start faithful {} true
  obtain ⟨last, lastCoherent, _, run⟩ := State.invariant_coherent.run closures coherent rfl
  have left : (parse closures restricted journal text).2 = last.session.journal :=
    congrArg (fun read => read.1.journal) run
  rw [left]
  exact lastCoherent.journal

/-- After any passes the variables are what the events tell. -/
theorem faithful_passes
    (closures : Closures) {journal : Journal} (texts : List (Bool × Text))
    (faithful : journal.Faithful) :
    (passes closures journal texts).Faithful := by
  unfold passes
  induction texts generalizing journal with
  | nil =>
      exact faithful
  | cons pass texts inductionHypothesis =>
      exact inductionHypothesis (faithful_parse closures pass.1 pass.2 faithful)

/--
At every moment of every sequence of passes, a variable holds the value that was last written under
its name; where this is a list, items may have been added to it since.  A value that is no list, and
a list to which nothing has been added, is held as it was written.  From any moment on, up to the
end of the pass, a variable that shares no list with a body being read keeps its value, and so its
name goes on standing for the same text, as long as it is not written.  A list that a body being
read shares is the value of the variable, whatever has been added to it.
-/
theorem variable_eq_lastWritten
    (closures : Closures)
    (initial : Mapping)
    (earlier : List (Bool × Text))
    (restricted : Bool)
    (text : Text)
    {state : State}
    (reaches :
      State.Reaches closures
        (State.start
          (Session.ofText text restricted (passes closures (Journal.update {} initial) earlier))
          {} true)
        state)
    {journal : Journal}
    (leadsTo : state.LeadsTo closures journal)
    (name : Text) :
    (journal.table.get? name =
        (Event.lastWritten name journal.events).map fun value =>
          value.extended (Event.grownSince name journal.events)) ∧
      ((∀ items, Event.lastWritten name journal.events ≠ some (.list items)) ∨
          Event.grownSince name journal.events = [] →
        journal.table.get? name = Event.lastWritten name journal.events) ∧
      (∃ news : List Event,
        journal.events = news ++ state.session.journal.events ∧
          (name ∉ state.sharedNames → ¬Event.Writes news name →
            journal.table.get? name = state.session.journal.table.get? name ∧
              ∀ fallback,
                (journal.resolve name fallback).1 =
                  (state.session.journal.resolve name fallback).1)) ∧
      ∀ frame ∈ state.frames, ∀ key ∈ frame.shared,
        ∃ items,
          frame.entries.get? key = some (.list items) ∧
            state.session.journal.table.get? (stripExt key) = some (.list items) := by
  have start : (State.start (Session.ofText text restricted
      (passes closures (Journal.update {} initial) earlier)) {} true).Coherent :=
    State.coherent_start
      (faithful_passes closures earlier (Journal.faithful_empty.update initial)) {} true
  have coherent := State.invariant_coherent.reaches reaches start
  have whole : state.wholeScript = true := reaches.wholeScript_eq
  obtain ⟨last, lastCoherent, lastJournal⟩ :=
    leadsTo.exists_of_invariant State.invariant_coherent coherent whole
  obtain ⟨accounted, ⟨news, accounts⟩, sameJournal⟩ :=
    leadsTo.exists_of_invariant (State.invariant_sharesFrom state) (.refl state) whole
  have told : journal.table = Event.told journal.events := lastJournal ▸ lastCoherent.journal.told
  have events : journal.events = news ++ state.session.journal.events :=
    sameJournal ▸ accounts.events
  have value := Event.get?_told name journal.events
  rw [← told] at value
  refine ⟨value, ?_, ⟨news, events, ?_⟩, ?_⟩
  · rw [value]
    rintro (noList | notGrown)
    · cases written : Event.lastWritten name journal.events with
      | none =>
          rfl
      | some last =>
          have noItems : last.items? = none := by
            cases last with
            | list items =>
                exact (noList items written).elim
            | _ =>
                rfl
          rw [Option.map_some, Value.extended_of_noList noItems]
    · rw [notGrown]
      simp [Value.extended_nil]
  · intro notShared notWritten
    have notGrown : ¬Event.Grows news name := fun grows =>
      (accounts.names name (.inr grows)).elim notShared notWritten
    have kept : journal.table.get? name = state.session.journal.table.get? name := by
      rw [told, events, Event.told_append_of_unchanged notWritten notGrown,
        ← coherent.journal.told]
    exact ⟨kept, Journal.resolve_congr kept⟩
  · exact fun frame member key shared => ((coherent.frames frame member).shares key shared).2

/-- In this text a list stands in a block without a key, and so becomes a variable; the statement
after the block adds to the list. -/
def grownText : Text :=
  "configure(a) \x7b\next.l = ['1']\n\x7d\next.l = 2".toList

/-- While the statement after the block is read, its key shares the list of the variable, which
holds it as it was written. -/
theorem variable_eq_lastWritten_sharedList :
    let start := State.start (Session.ofText grownText false (Journal.update {} [])) {} true
    let state := State.readOn Closures.standard 30 start
    let journal := state.session.journal
    State.Reaches Closures.standard start state ∧
      "l".toList ∈ state.sharedNames ∧
      Event.grownSince "l".toList journal.events = [] ∧
      journal.table.get? "l".toList = Event.lastWritten "l".toList journal.events ∧
      journal.table.get? "l".toList = some (.list [.text "1".toList]) := by
  intro start state journal
  have reaches : State.Reaches Closures.standard start state :=
    State.reaches_readOn Closures.standard 30 start
  have notGrown : Event.grownSince "l".toList journal.events = [] :=
    List.isEmpty_iff.mp (by decide +kernel)
  obtain ⟨_, asWritten, _, _⟩ :=
    variable_eq_lastWritten Closures.standard [] [] false grownText reaches (.place .refl)
      "l".toList
  exact
    ⟨reaches, by decide +kernel, notGrown, asWritten (.inr notGrown), by decide +kernel⟩

/-- At the end the variable holds what was added to its list, without having been written again. -/
theorem parse_grownVariable :
    let left := (parse Closures.standard false {} grownText).2
    left.table.get? "l".toList = some (.list [.text "1".toList, .text "2".toList]) ∧
      Event.lastWritten "l".toList left.events = some (.list [.text "1".toList]) := by
  intro left
  have ended :
      left =
        (State.readOn Closures.standard 40
          (State.start (Session.ofText grownText false {}) {}
            true)).flush.leaveBody.session.journal :=
    State.journal_run_of_readOn 40 (by decide +kernel) (by decide +kernel)
      (List.isEmpty_iff.mp (by decide +kernel))
  rw [ended]
  exact ⟨by decide +kernel, by decide +kernel⟩

end Script

end GradleScript
