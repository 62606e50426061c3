import GradleScript.Proofs.Simulation.Invariants
import GradleScript.Proofs.Simulation.Outline
import GradleScript.Proofs.Value.Merged

namespace GradleScript

/-!
# Lists with two names

A list can stand under a key of a body and be the value of a variable at the same time.  While this
is so the two are the same list: whatever is added to the list under the key is added to that of the
variable.  No variable shares its list with two keys, so that adding to one list never concerns
another one, and a variable that is written anew shares nothing with what it held before.

The events of a journal tell all of it: the variables are what the events leave of none, and every
event that adds to a list finds one.
-/

/-! ## What the events tell -/

namespace Event

/-- The variables that some events, latest first, leave of none. -/
def told (events : List Event) : Variables :=
  events.foldr Event.replay {}

/-- Whether every event that adds to the list of a variable finds a list. -/
def GrowsLists : List Event → Prop
  | [] =>
      True
  | .variableGrown name _ :: earlier =>
      (∃ items, (told earlier).get? name = some (.list items)) ∧ GrowsLists earlier
  | _ :: earlier =>
      GrowsLists earlier

end Event

namespace Variables

/-- A variable that is written has its new value, and every other one keeps its own. -/
theorem get?_set
    (table : Variables) (name other : Text) (value : Value) :
    (table.set name value).get? other = if name = other then some value else table.get? other :=
  Mapping.get?_put table.values name other value

/-- Items are added to a list, and every other name keeps its value. -/
theorem get?_grow
    {table : Variables} {name : Text} {present : List Value}
    (isList : table.get? name = some (.list present))
    (items : List Value) (other : Text) :
    (table.grow name items).get? other =
      if name = other then some (.list (present ++ items)) else table.get? other := by
  unfold grow
  rw [isList]
  exact get?_set table name other _

end Variables

namespace Journal

/-- Whether the variables are what the events tell, and only lists have been added to. -/
structure Faithful (journal : Journal) : Prop where
  told : journal.table = Event.told journal.events
  growsLists : Event.GrowsLists journal.events

/-- An empty table is what no events tell. -/
theorem faithful_empty : Faithful {} :=
  ⟨rfl, trivial⟩

namespace Faithful

variable {journal : Journal}

/-- Writing a variable is reported, so the table stays what the events tell. -/
theorem set
    (faithful : journal.Faithful)
    (name : Text) (value : Value) :
    (journal.set name value).Faithful := by
  unfold Journal.set
  dsimp only
  split
  · exact faithful
  · refine ⟨?_, faithful.growsLists⟩
    exact congrArg (fun table => Variables.set table (stripExt name) value) faithful.told

/-- Writing all entries of a mapping is reported entry by entry. -/
theorem update
    (faithful : journal.Faithful)
    (entries : Mapping) :
    (journal.update entries).Faithful := by
  unfold Journal.update
  induction entries generalizing journal with
  | nil =>
      exact faithful
  | cons entry entries inductionHypothesis =>
      exact inductionHypothesis (faithful.set entry.1 entry.2)

/-- An event that is no write tells nothing about the table. -/
theorem report
    (faithful : journal.Faithful)
    {event : Event}
    (noWrite : event.isWrite = false) :
    (journal.report event).Faithful := by
  cases event with
  | variableSet name value =>
      cases noWrite
  | variableGrown name items =>
      cases noWrite
  | _ =>
      exact ⟨faithful.told, faithful.growsLists⟩

/-- Adding to the list of a variable is reported, so the table stays what the events tell. -/
theorem grow
    (faithful : journal.Faithful)
    {name : Text}
    (isList : ∃ present, journal.table.get? name = some (.list present))
    (items : List Value) :
    (journal.grow name items).Faithful := by
  refine ⟨?_, ?_, faithful.growsLists⟩
  · exact congrArg (fun table => Variables.grow table name items) faithful.told
  · rw [← faithful.told]
    exact isList

end Faithful

/-- A name that is not empty without its marker is written in the table. -/
theorem table_set
    (journal : Journal) {name : Text}
    (isNamed : stripExt name ≠ [])
    (value : Value) :
    (journal.set name value).table = journal.table.set (stripExt name) value := by
  have named : (stripExt name).isEmpty = false := by simpa using isNamed
  unfold set
  dsimp only
  rw [named]
  rfl

/-- Writing a variable leaves every other one. -/
theorem get?_set_of_ne
    (journal : Journal) {name other : Text}
    (different : stripExt name ≠ other)
    (value : Value) :
    (journal.set name value).table.get? other = journal.table.get? other := by
  unfold set
  dsimp only
  split
  · rfl
  · exact (Variables.get?_set _ _ _ _).trans (if_neg different)

end Journal

/-! ## Keys and variables that share a list -/

namespace Frame

/-- Whether each list that a frame shares is the value of its variable. -/
structure Agrees (table : Variables) (frame : Frame) : Prop where
  distinct : (frame.entries.map Prod.fst).Nodup
  shares :
    ∀ key ∈ frame.shared,
      stripExt key ≠ [] ∧
        ∃ items,
          frame.entries.get? key = some (.list items) ∧
            table.get? (stripExt key) = some (.list items)

/-- The variables with which a frame shares a list. -/
def sharedNames (frame : Frame) : List Text :=
  frame.shared.map stripExt

/-- A frame goes on agreeing where its variables keep their values. -/
theorem Agrees.of_table
    {table other : Variables} {frame : Frame}
    (agrees : frame.Agrees table)
    (same : ∀ name ∈ frame.sharedNames, other.get? name = table.get? name) :
    frame.Agrees other := by
  refine ⟨agrees.distinct, ?_⟩
  intro key member
  rw [same (stripExt key) (List.mem_map_of_mem member)]
  exact agrees.shares key member

/-- Ending the sharing of a variable takes its name, and no other one, out of a frame. -/
theorem sharedNames_unshare
    (frame : Frame) (name : Text) :
    (frame.unshare name).sharedNames = frame.sharedNames.filter fun other => other != name := by
  unfold unshare sharedNames
  rw [List.filter_map]
  rfl

/-- A frame that shares less goes on agreeing with the table. -/
theorem Agrees.unshare
    {table : Variables} {frame : Frame}
    (agrees : frame.Agrees table)
    (name : Text) :
    (frame.unshare name).Agrees table :=
  ⟨agrees.distinct, fun key member => agrees.shares key (List.mem_filter.mp member).1⟩

end Frame

namespace State

/-- The variables with which the bodies being read share a list. -/
def sharedNames (state : State) : List Text :=
  state.frames.flatMap Frame.sharedNames

/-- Whether the journal tells what the variables are, and each list that is shared is one list under
its key and its variable, and under no other key. -/
structure Coherent (state : State) : Prop where
  journal : state.session.journal.Faithful
  frames : ∀ frame ∈ state.frames, frame.Agrees state.session.journal.table
  once : state.sharedNames.Nodup

/-- The shared variables are those of the current body before those of the bodies around it. -/
theorem sharedNames_eq
    (state : State) :
    state.sharedNames =
      state.frame.sharedNames ++ (state.outer.map Suspended.frame).flatMap Frame.sharedNames :=
  rfl

/-- The sharing of a variable ends in every body at once. -/
theorem frames_unshare
    (state : State) (name : Text) :
    (state.unshare name).frames = state.frames.map fun frame => frame.unshare name := by
  unfold frames unshare
  simp

/-- Ending the sharing of a variable takes its name, and no other one, out of all bodies. -/
theorem sharedNames_unshare
    (state : State) (name : Text) :
    (state.unshare name).sharedNames = state.sharedNames.filter fun other => other != name := by
  unfold sharedNames
  rw [frames_unshare, List.flatMap_map, List.filter_flatMap]
  exact List.flatMap_congr fun frame _ => frame.sharedNames_unshare name

/-- A variable that has been written shares its list with no body. -/
theorem not_mem_sharedNames_unshare
    (state : State) (name : Text) :
    name ∉ (state.unshare name).sharedNames := by
  rw [sharedNames_unshare]
  simp

namespace Coherent

variable {state : State}

/-- The current body agrees with the variables. -/
theorem frame
    (coherent : state.Coherent) :
    state.frame.Agrees state.session.journal.table :=
  coherent.frames state.frame List.mem_cons_self

/-- The current frame may be written in any way in which it goes on agreeing and shares no more. -/
theorem withFrame
    (coherent : state.Coherent)
    {frame : Frame}
    (agrees : frame.Agrees state.session.journal.table)
    (fewer : frame.shared.Sublist state.frame.shared) :
    (state.withFrame frame).Coherent where
  journal := coherent.journal
  frames := by
    intro other member
    rcases List.mem_cons.mp member with isCurrent | isAround
    · rw [isCurrent]
      exact agrees
    · exact coherent.frames other (List.mem_cons_of_mem _ isAround)
  once := by
    have names : frame.sharedNames.Sublist state.frame.sharedNames := fewer.map stripExt
    have once := coherent.once
    rw [sharedNames_eq] at once ⊢
    exact once.sublist (names.append_right _)

/-- Writing a variable ends the sharing of its list. -/
theorem setVariable
    (coherent : state.Coherent)
    (name : Text) (value : Value) :
    (state.setVariable name value).Coherent where
  journal := coherent.journal.set name value
  frames := by
    intro frame member
    have written : frame ∈ (state.unshare (stripExt name)).frames := member
    rw [frames_unshare] at written
    obtain ⟨before, beforeMember, rfl⟩ := List.mem_map.mp written
    refine ((coherent.frames before beforeMember).unshare (stripExt name)).of_table ?_
    intro other isShared
    rw [Frame.sharedNames_unshare, List.mem_filter, bne_iff_ne] at isShared
    exact state.session.journal.get?_set_of_ne isShared.2.symm value
  once := by
    have names : (state.setVariable name value).sharedNames =
        state.sharedNames.filter fun other => other != stripExt name :=
      sharedNames_unshare state (stripExt name)
    rw [names]
    exact coherent.once.filter _

/-- Writing several variables ends the sharing of their lists. -/
theorem setVariables
    (coherent : state.Coherent)
    (entries : Mapping) :
    (state.setVariables entries).Coherent := by
  unfold State.setVariables
  induction entries generalizing state with
  | nil =>
      exact coherent
  | cons entry entries inductionHypothesis =>
      exact inductionHypothesis (coherent.setVariable entry.1 entry.2)

/-- A list that has just been written under the variable of its key can be shared. -/
theorem share
    (coherent : state.Coherent)
    {key : Text}
    (notShared : stripExt key ∉ state.sharedNames)
    (isList :
      stripExt key ≠ [] →
        ∃ items,
          state.frame.entries.get? key = some (.list items) ∧
            state.session.journal.table.get? (stripExt key) = some (.list items)) :
    (state.share key).Coherent := by
  unfold State.share
  split
  · exact coherent
  · next isNamed =>
      have named : stripExt key ≠ [] := by simpa using isNamed
      refine ⟨coherent.journal, ?_, List.nodup_cons.mpr ⟨notShared, coherent.once⟩⟩
      intro frame member
      rcases List.mem_cons.mp member with isCurrent | isAround
      · rw [isCurrent]
        exact
          ⟨coherent.frame.distinct,
            List.forall_mem_cons.mpr ⟨⟨named, isList named⟩, coherent.frame.shares⟩⟩
      · exact coherent.frames frame (List.mem_cons_of_mem _ isAround)

/-- Items added to a list that is shared are added under its key and its variable, and to no other
list. -/
theorem extend
    (coherent : state.Coherent)
    {key : Text} {present : List Value}
    (shared : key ∈ state.frame.shared)
    (isList : state.frame.entries.get? key = some (.list present))
    (items : List Value) :
    ((state.withEntries (state.frame.entries.put key (.list (present ++ items)))).withJournal
      (state.session.journal.grow (stripExt key) items)).Coherent := by
  obtain ⟨_, found, listUnderKey, isVariable⟩ := coherent.frame.shares key shared
  cases isList.symm.trans listUnderKey
  have grown := Variables.get?_grow isVariable items
  -- No other key stands for the variable, in this body or around it.
  have once := coherent.once
  rw [sharedNames_eq, List.nodup_append] at once
  obtain ⟨onceHere, _, apart⟩ := once
  refine ⟨coherent.journal.grow ⟨_, isVariable⟩ items, ?_, coherent.once⟩
  intro frame member
  rcases List.mem_cons.mp member with isCurrent | isAround
  · rw [isCurrent]
    refine ⟨Mapping.nodup_keys_put coherent.frame.distinct key _, ?_⟩
    intro other otherShared
    obtain ⟨named, otherItems, otherFound, otherVariable⟩ := coherent.frame.shares other otherShared
    refine ⟨named, ?_⟩
    have written := Mapping.get?_put state.frame.entries key other (.list (present ++ items))
    by_cases isKey : key = other
    · subst isKey
      exact
        ⟨present ++ items, written.trans (if_pos rfl), (grown (stripExt key)).trans (if_pos rfl)⟩
    · have otherName : stripExt key ≠ stripExt other := fun sameName =>
        isKey (List.inj_on_of_nodup_map onceHere shared otherShared sameName)
      exact
        ⟨otherItems, (written.trans (if_neg isKey)).trans otherFound,
          ((grown (stripExt other)).trans (if_neg otherName)).trans otherVariable⟩
  · refine (coherent.frames frame (List.mem_cons_of_mem _ isAround)).of_table ?_
    intro name isShared
    refine (grown name).trans (if_neg ?_)
    exact apart _ (List.mem_map_of_mem shared) name
      (List.mem_flatMap.mpr ⟨frame, isAround, isShared⟩)

/-- A key that shares no list may get any value. -/
theorem putEntry
    (coherent : state.Coherent)
    {key : Text}
    (notShared : key ∉ state.frame.shared)
    (value : Value) :
    (state.withEntries (state.frame.entries.put key value)).Coherent := by
  refine coherent.withFrame ⟨Mapping.nodup_keys_put coherent.frame.distinct key value, ?_⟩
    (List.Sublist.refl _)
  intro other otherShared
  have different : key ≠ other := fun isKey => notShared (isKey ▸ otherShared)
  rw [Mapping.get?_put, if_neg different]
  exact coherent.frame.shares other otherShared

/-- A key that gets a value of its own shares no list any more. -/
theorem putOwn
    (coherent : state.Coherent)
    (key : Text) (value : Value) :
    ((state.withEntries (state.frame.entries.put key value)).dropShared key).Coherent := by
  refine
    coherent.withFrame ⟨Mapping.nodup_keys_put coherent.frame.distinct key value, ?_⟩
      List.filter_sublist
  intro other otherMember
  obtain ⟨otherShared, isOther⟩ := List.mem_filter.mp otherMember
  have different : key ≠ other := by
    rw [bne_iff_ne] at isOther
    exact Ne.symm isOther
  refine (coherent.frame.shares other otherShared).imp_right ?_
  rintro ⟨items, isList, isVariable⟩
  exact ⟨items, ((Mapping.get?_put _ _ _ _).trans (if_neg different)).trans isList, isVariable⟩

/-! ## Storing keeps both lists the same -/

/-- A value that is added to a key is added to the variable that shares the list of the key. -/
theorem addEntry
    (coherent : state.Coherent)
    (key : Text) (value : Value) :
    (state.addEntry key value).Coherent := by
  unfold State.addEntry growShared
  split
  · next isShared =>
      have shared : key ∈ state.frame.shared := List.contains_iff_mem.mp isShared
      obtain ⟨named, present, isList, _⟩ := coherent.frame.shares key shared
      have keyed : key.isEmpty = false := by
        cases key with
        | nil =>
            exact (named rfl).elim
        | cons ch key =>
            rfl
      have added : state.frame.entries.add key value =
          state.frame.entries.put key (.list (present ++ [value])) := by
        unfold Mapping.add
        rw [keyed, isList]
        rfl
      rw [added]
      exact coherent.extend shared isList [value]
  · next isShared =>
      have notShared : key ∉ state.frame.shared := fun member =>
        isShared (List.contains_iff_mem.mpr member)
      unfold Mapping.add
      split
      · exact coherent
      · exact coherent.putEntry notShared _

/-- A recorded list is shared between its key and its variable exactly where the two are one
list. -/
theorem record
    (coherent : state.Coherent)
    (key : Text) (value : Value) :
    (state.record key value).Coherent := by
  have written := (coherent.addEntry key value).setVariable key value
  unfold State.record
  dsimp only
  split
  · split
    · next isNewList =>
        obtain ⟨isNew, isList⟩ := Bool.and_eq_true_iff.mp isNewList
        obtain ⟨items, itemsShape⟩ := Option.isSome_iff_exists.mp isList
        obtain rfl : value = .list items := by
          cases value <;> cases itemsShape
          rfl
        apply written.share (not_mem_sharedNames_unshare _ _)
        intro named
        refine ⟨items, ?_, ?_⟩
        · have keyed : key.isEmpty = false := by
            cases key with
            | nil =>
                exact (named rfl).elim
            | cons ch key =>
                rfl
          have entries : (state.addEntry key (.list items)).frame.entries =
              state.frame.entries.add key (.list items) :=
            entries_growShared _ _ _
          have noValue : state.frame.entries.get? key = none := by simpa using isNew
          refine (congrArg (fun stored => Mapping.get? stored key) entries).trans ?_
          unfold Mapping.add
          rw [keyed, noValue]
          exact (Mapping.get?_put _ _ _ _).trans (if_pos rfl)
        · have table :
              ((state.addEntry key (.list items)).setVariable key
                (.list items)).session.journal.table =
                (state.addEntry key (.list items)).session.journal.table.set (stripExt key)
                  (.list items) :=
            Journal.table_set _ named _
          rw [table, Variables.get?_set, if_pos rfl]
    · exact written
  · exact coherent.addEntry key value

/-- A closure is added to a list under its key and under the variable that shares it, or replaces
what shares none. -/
theorem storeClosure
    (coherent : state.Coherent)
    (key : Text) (value : Value) :
    (state.storeClosure key value).Coherent := by
  unfold State.storeClosure
  split
  · next present items isList =>
      unfold growShared
      split
      · next isShared =>
          exact coherent.extend (List.contains_iff_mem.mp isShared) isList items
      · next isShared =>
          exact coherent.putEntry (fun member => isShared (List.contains_iff_mem.mpr member)) _
  · exact coherent.putOwn key _

/-- A nested block takes the place of what its key held, so the key shares no list with a
variable. -/
theorem storeBlock
    (coherent : state.Coherent)
    (key : Text) (nested : Mapping) :
    (state.storeBlock key nested).Coherent := by
  have stored := coherent.putOwn key
    (Mapping.mergeValue (state.frame.entries.get? key) (.mapping nested))
  unfold State.storeBlock
  dsimp only
  split
  · next entries _ _ =>
      have written := stored.setVariables entries
      exact ⟨written.journal.report rfl, written.frames, written.once⟩
  · exact stored

/-- The extra properties of a block that has been merged become variables that share its lists. -/
theorem setExtVariables
    (coherent : state.Coherent)
    {entries : Mapping}
    (lists :
      ∀ key items, (key, Value.list items) ∈ entries →
        state.frame.entries.get? key = some (.list items)) :
    (state.setExtVariables entries).Coherent := by
  unfold State.setExtVariables
  have marked :
      ∀ key items, (key, Value.list items) ∈ Journal.extEntries entries →
        state.frame.entries.get? key = some (.list items) :=
    fun key items member => lists key items (List.mem_filter.mp member).1
  clear lists
  generalize Journal.extEntries entries = ext at marked ⊢
  induction ext generalizing state with
  | nil =>
      exact coherent
  | cons entry ext inductionHypothesis =>
      obtain ⟨name, value⟩ := entry
      have written := coherent.setVariable name value
      have laterLists :
          ∀ key items, (key, Value.list items) ∈ ext →
            state.frame.entries.get? key = some (.list items) :=
        fun key items member => marked key items (List.mem_cons_of_mem _ member)
      rw [List.foldl_cons]
      dsimp only
      split
      · next isList =>
          obtain ⟨items, itemsShape⟩ := Option.isSome_iff_exists.mp isList
          obtain rfl : value = .list items := by
            cases value <;> cases itemsShape
            rfl
          have shared : ((state.setVariable name (.list items)).share name).Coherent := by
            apply written.share (not_mem_sharedNames_unshare _ _)
            intro named
            refine ⟨items, marked name items List.mem_cons_self, ?_⟩
            have table :
                (state.setVariable name (.list items)).session.journal.table =
                  state.session.journal.table.set (stripExt name) (.list items) :=
              Journal.table_set _ named _
            rw [table, Variables.get?_set, if_pos rfl]
          have entriesSame :
              ((state.setVariable name (.list items)).share name).frame.entries =
                state.frame.entries := by
            unfold State.share
            split <;> rfl
          apply inductionHypothesis shared
          rw [entriesSame]
          exact laterLists
      · exact inductionHypothesis written laterLists

/-! ## Entering and leaving bodies -/

/-- A nested body begins with no entries and so with no shared list. -/
theorem suspend
    (coherent : state.Coherent)
    (opening : Opening) (mode : Mode) :
    (state.suspend opening mode).Coherent where
  journal := coherent.journal
  frames := by
    refine List.forall_mem_cons.mpr ⟨⟨List.nodup_nil, ?_⟩, coherent.frames⟩
    exact fun _ member => nomatch member
  once := coherent.once

/-- What a finished body shares, the body around it may share in its place. -/
theorem mergeAnonymous
    (coherent : state.Coherent)
    {nested : Frame}
    (agrees : nested.Agrees state.session.journal.table)
    (once : (nested.sharedNames ++ state.sharedNames).Nodup) :
    (state.mergeAnonymous nested).Coherent := by
  have merged :
      ((state.withEntries (Mapping.merge state.frame.entries nested.entries)).withShared
        ((state.frame.shared.filter fun key => !nested.entries.contains key) ++
          nested.shared)).Coherent := by
    refine ⟨coherent.journal, ?_, ?_⟩
    · refine List.forall_mem_cons.mpr ⟨⟨?_, ?_⟩, ?_⟩
      · exact Mapping.nodup_keys_merge coherent.frame.distinct nested.entries
      · intro key member
        rcases List.mem_append.mp member with isKept | isNested
        · obtain ⟨shared, notContained⟩ := List.mem_filter.mp isKept
          have isNew : nested.entries.get? key = none := by
            simpa [Mapping.contains] using notContained
          refine (coherent.frame.shares key shared).imp_right ?_
          rintro ⟨items, isList, isVariable⟩
          exact
            ⟨items, (Mapping.get?_merge_of_new agrees.distinct _ isNew).trans isList, isVariable⟩
        · refine (agrees.shares key isNested).imp_right ?_
          rintro ⟨items, isList, isVariable⟩
          exact ⟨items, Mapping.get?_merge_list agrees.distinct _ isList, isVariable⟩
      · exact fun frame member => coherent.frames frame (List.mem_cons_of_mem _ member)
    · have kept :
          ((state.frame.shared.filter fun key => !nested.entries.contains key).map
            stripExt).Sublist state.frame.sharedNames :=
        List.filter_sublist.map stripExt
      refine List.Nodup.sublist ?_ ((List.perm_append_comm_assoc _ _ _).nodup_iff.mp once)
      change
        (((state.frame.shared.filter fun key => !nested.entries.contains key) ++
          nested.shared).map stripExt ++
            (state.outer.map Suspended.frame).flatMap Frame.sharedNames).Sublist _
      rw [List.map_append, List.append_assoc]
      exact kept.append (List.Sublist.refl _)
  apply merged.setExtVariables
  intro key items member
  exact Mapping.get?_merge_list agrees.distinct _ (Mapping.get?_of_mem agrees.distinct member)

/-- The body around a finished one is as coherent as the finished one is. -/
theorem around
    (coherent : state.Coherent)
    {suspended : Suspended} {outer : List Suspended}
    (isAround : state.outer = suspended :: outer) :
    ((state.withFrame suspended.frame).withOuter outer).Coherent where
  journal := coherent.journal
  frames := by
    intro frame member
    apply coherent.frames frame
    unfold State.frames
    rw [isAround]
    exact List.mem_cons_of_mem _ member
  once := by
    have once := coherent.once
    rw [sharedNames_eq, isAround] at once
    exact (List.nodup_append.mp once).2.1

/-- What a finished body shares is stored in the body around it without sharing a list twice. -/
theorem resume
    (coherent : state.Coherent)
    {suspended : Suspended} {outer : List Suspended}
    (isAround : state.outer = suspended :: outer) :
    (state.resume suspended outer).Coherent := by
  have enclosing := coherent.around isAround
  have once := coherent.once
  rw [sharedNames_eq, isAround] at once
  unfold State.resume
  dsimp only
  split
  · exact enclosing.storeClosure _ _
  · exact enclosing.storeClosure _ _
  · next key inDependencies _ =>
      have left :
          (((state.withFrame suspended.frame).withOuter outer).inContextOf
            inDependencies).Coherent :=
        ⟨enclosing.journal, enclosing.frames, enclosing.once⟩
      split
      · exact left.mergeAnonymous coherent.frame once
      · exact left.storeBlock _ _

end Coherent

/-- Whatever is read, the two names of a shared list stand for the same list. -/
theorem invariant_coherent : Invariant Coherent where
  congr {first second} coherent sameContents sameJournal := by
    have framesAgree {frame : Frame} (member : frame ∈ second.frames) :
        frame.Agrees second.session.journal.table := by
      have contained : frame.contents ∈ first.frames.map Frame.contents :=
        sameContents ▸ List.mem_map_of_mem member
      obtain ⟨other, otherMember, same⟩ := List.mem_map.mp contained
      obtain ⟨sameEntries, sameShared⟩ := Prod.mk.inj same
      obtain ⟨distinct, shares⟩ := coherent.frames other otherMember
      rw [sameEntries] at distinct shares
      rw [sameShared, ← sameJournal] at shares
      exact ⟨distinct, shares⟩
    have names (state : State) :
        state.sharedNames =
          (state.frames.map Frame.contents).flatMap fun contents => contents.2.map stripExt := by
      rw [List.flatMap_map]
      rfl
    refine ⟨sameJournal ▸ coherent.journal, fun frame member => framesAgree member, ?_⟩
    rw [names second, sameContents, ← names first]
    exact coherent.once
  report event noWrite coherent := by
    refine ⟨coherent.journal.report noWrite, coherent.frames, coherent.once⟩
  record key value coherent := coherent.record key value
  storeClosure key value coherent := coherent.storeClosure key value
  suspend opening mode coherent := coherent.suspend opening mode
  resume isAround coherent := coherent.resume isAround

/-- At the beginning of a text nothing is shared. -/
theorem coherent_start
    {session : Session}
    (faithful : session.journal.Faithful)
    (mode : Mode) (wholeScript : Bool) :
    (State.start session mode wholeScript).Coherent := by
  refine ⟨faithful, List.forall_mem_singleton.mpr ⟨List.nodup_nil, ?_⟩, List.nodup_nil⟩
  exact fun _ member => nomatch member

end State

end GradleScript
