import GradleScript.Project
import GradleScript.Proofs.Script.Ending
import GradleScript.Proofs.Script.Noninterference
import GradleScript.Proofs.Simulation.Sharing

namespace GradleScript

/-!
# Reading a text once more

A text without a dollar sign makes the same writes in every pass.  Each list that it adds to is one
that the same pass has written before, so the writes of a pass come to this: they put the variables
that the pass leaves of none over those it begins with.  To do so a second time changes nothing.
-/

namespace Variables

/-- The variables after every entry of a mapping has been written. -/
def setAll (table : Variables) (entries : Mapping) : Variables :=
  entries.foldl (fun written entry => written.set entry.1 entry.2) table

/-- Under a name of the entries there is what the entries say, and any other name keeps its
value. -/
theorem get?_setAll
    (table : Variables) {entries : Mapping}
    (distinct : (entries.map Prod.fst).Nodup)
    (name : Text) :
    (table.setAll entries).get? name = (entries.get? name).or (table.get? name) := by
  induction entries generalizing table with
  | nil =>
      rfl
  | cons entry entries inductionHypothesis =>
      obtain ⟨present, value⟩ := entry
      rw [List.map_cons, List.nodup_cons] at distinct
      have later := inductionHypothesis (table.set present value) distinct.2
      refine later.trans ?_
      rw [get?_set, Mapping.get?_cons]
      by_cases isName : present = name
      · subst isName
        rw [Mapping.get?_eq_none_iff.mpr distinct.1]
        simp
      · simp [isName]

/-- A variable that is written has its name in the table. -/
theorem mem_names_set
    (table : Variables) (name : Text) (value : Value) :
    name ∈ (table.set name value).values.map Prod.fst := by
  by_contra notThere
  have read := get?_set table name name value
  rw [if_pos rfl] at read
  cases (Mapping.get?_eq_none_iff.mpr notThere).symm.trans read

/-- A name that is there, and that no entry has, can be written before the entries. -/
theorem set_setAll
    {table : Variables} {entries : Mapping} {name : Text}
    (isThere : name ∈ table.values.map Prod.fst)
    (notWritten : name ∉ entries.map Prod.fst)
    (value : Value) :
    (table.setAll entries).set name value = (table.set name value).setAll entries := by
  induction entries generalizing table with
  | nil =>
      rfl
  | cons entry entries inductionHypothesis =>
      obtain ⟨other, otherValue⟩ := entry
      rw [List.map_cons, List.mem_cons, not_or] at notWritten
      have stillThere : name ∈ (table.set other otherValue).values.map Prod.fst := by
        have names : (table.set other otherValue).values.map Prod.fst = _ :=
          Mapping.keys_put table.values other otherValue
        rw [names]
        split
        · exact isThere
        · exact List.mem_append_left _ isThere
      have swapped :
          (table.set other otherValue).set name value =
            (table.set name value).set other otherValue :=
        congrArg Variables.mk
          (Mapping.put_comm_of_mem isThere (Ne.symm notWritten.1) value otherValue)
      have later := inductionHypothesis stillThere notWritten.2
      rw [swapped] at later
      exact later

/-- To write a name after some entries is to write the entries with this name written among them. -/
theorem setAll_put
    (table : Variables) {entries : Mapping}
    (distinct : (entries.map Prod.fst).Nodup)
    (name : Text) (value : Value) :
    (table.setAll entries).set name value = table.setAll (entries.put name value) := by
  induction entries generalizing table with
  | nil =>
      rfl
  | cons entry entries inductionHypothesis =>
      obtain ⟨present, current⟩ := entry
      rw [List.map_cons, List.nodup_cons] at distinct
      by_cases isName : present = name
      · subst isName
        have written := set_setAll (mem_names_set table present current) distinct.1 value
        have twice : (table.set present current).set present value = table.set present value :=
          congrArg Variables.mk (Mapping.put_put table.values present current value)
        have front : Mapping.put ((present, current) :: entries) present value =
            (present, value) :: entries := by
          simp [Mapping.put]
        rw [twice] at written
        rw [front]
        exact written
      · have front : Mapping.put ((present, current) :: entries) name value =
            (present, current) :: Mapping.put entries name value := by
          simp [Mapping.put, isName]
        rw [front]
        exact inductionHypothesis (table.set present current) distinct.2

/-- Writing what is there changes nothing. -/
theorem setAll_of_get?
    {table : Variables} {entries : Mapping}
    (areThere : ∀ entry ∈ entries, table.get? entry.1 = some entry.2) :
    table.setAll entries = table := by
  induction entries with
  | nil =>
      rfl
  | cons entry entries inductionHypothesis =>
      obtain ⟨isThere, othersAreThere⟩ := List.forall_mem_cons.mp areThere
      have written : table.set entry.1 entry.2 = table :=
        congrArg Variables.mk (Mapping.put_of_get? isThere)
      unfold setAll
      rw [List.foldl_cons, written]
      exact inductionHypothesis othersAreThere

/-- Entries that have been written need not be written again. -/
theorem setAll_setAll
    (table : Variables) {entries : Mapping}
    (distinct : (entries.map Prod.fst).Nodup) :
    (table.setAll entries).setAll entries = table.setAll entries := by
  apply setAll_of_get?
  intro entry member
  rw [get?_setAll table distinct, Mapping.get?_of_mem distinct member]
  rfl

end Variables

namespace Event

/-- A name has at most one value in what events leave of none. -/
theorem nodup_told
    (events : List Event) :
    ((told events).values.map Prod.fst).Nodup := by
  induction events with
  | nil =>
      exact List.nodup_nil
  | cons event earlier inductionHypothesis =>
      have shape : told (event :: earlier) = event.replay (told earlier) := rfl
      rw [shape]
      cases event with
      | variableSet name value =>
          exact Mapping.nodup_keys_put inductionHypothesis name value
      | variableGrown name items =>
          unfold replay Variables.grow
          dsimp only
          split
          · exact Mapping.nodup_keys_put inductionHypothesis name _
          · exact inductionHypothesis
      | _ =>
          exact inductionHypothesis

/-- What events leave of none has only names that the events write. -/
theorem exists_variableSet_of_told
    {events : List Event} {name : Text} {value : Value}
    (isTold : (told events).get? name = some value) :
    ∃ written, Event.variableSet name written ∈ events := by
  induction events generalizing value with
  | nil =>
      cases isTold
  | cons event earlier inductionHypothesis =>
      have shape : told (event :: earlier) = event.replay (told earlier) := rfl
      have fromEarlier {value : Value} (found : (told earlier).get? name = some value) :
          ∃ written, Event.variableSet name written ∈ event :: earlier := by
        obtain ⟨written, member⟩ := inductionHypothesis found
        exact ⟨written, List.mem_cons_of_mem _ member⟩
      rw [shape] at isTold
      cases event with
      | variableSet other written =>
          by_cases isName : other = name
          · exact ⟨written, isName ▸ List.mem_cons_self⟩
          · have isOther :
                ((told earlier).set other written).get? name = (told earlier).get? name :=
              (Variables.get?_set _ _ _ _).trans (if_neg isName)
            exact fromEarlier (isOther.symm.trans isTold)
      | variableGrown other items =>
          unfold replay at isTold
          dsimp only at isTold
          cases found : (told earlier).get? name with
          | some present =>
              exact fromEarlier found
          | none =>
              -- A name without a value gets none when a list grows.
              unfold Variables.grow at isTold
              split at isTold
              · next present isList =>
                  have different : other ≠ name := by
                    rintro rfl
                    cases found.symm.trans isList
                  rw [Variables.get?_set, if_neg different, found] at isTold
                  cases isTold
              · cases found.symm.trans isTold
      | _ =>
          exact fromEarlier isTold

/-- Where every list that grows has been written before, each event that adds to a list comes after
one that writes it. -/
theorem GrowsLists.exists_variableSet
    {events : List Event}
    (growsLists : GrowsLists events)
    {later earlier : List Event} {name : Text} {items : List Value}
    (shape : events = later ++ .variableGrown name items :: earlier) :
    ∃ written, Event.variableSet name written ∈ earlier := by
  induction later generalizing events with
  | nil =>
      subst shape
      obtain ⟨⟨present, isList⟩, _⟩ := growsLists
      exact exists_variableSet_of_told isList
  | cons event later inductionHypothesis =>
      subst shape
      apply inductionHypothesis _ rfl
      cases event with
      | variableGrown other otherItems =>
          exact growsLists.2
      | _ =>
          exact growsLists

/-- Replayed over some variables, events write what they leave of none. -/
theorem GrowsLists.replayed
    {events : List Event}
    (growsLists : GrowsLists events)
    (table : Variables) :
    events.foldr Event.replay table = table.setAll (told events).values := by
  induction events with
  | nil =>
      rfl
  | cons event earlier inductionHypothesis =>
      have shape : told (event :: earlier) = event.replay (told earlier) := rfl
      rw [List.foldr_cons, shape]
      cases event with
      | variableSet name value =>
          rw [inductionHypothesis growsLists]
          exact Variables.setAll_put table (nodup_told earlier) name value
      | variableGrown name items =>
          obtain ⟨⟨present, isList⟩, earlierGrows⟩ := growsLists
          have isListThere :
              (table.setAll (told earlier).values).get? name = some (.list present) := by
            have written : (told earlier).values.get? name = some (.list present) := isList
            rw [Variables.get?_setAll table (nodup_told earlier), written]
            rfl
          rw [inductionHypothesis earlierGrows]
          unfold replay Variables.grow
          dsimp only
          rw [isList, isListThere]
          exact Variables.setAll_put table (nodup_told earlier) name _
      | _ =>
          exact inductionHypothesis growsLists

end Event

/-- Events that have been replayed over some variables can be replayed again. -/
theorem Event.GrowsLists.table_onto_onto
    {news : Journal}
    (growsLists : Event.GrowsLists news.events)
    (base : Journal) :
    (news.onto (news.onto base)).table = (news.onto base).table := by
  unfold Journal.onto
  dsimp only
  rw [growsLists.replayed, growsLists.replayed]
  exact Variables.setAll_setAll _ (Event.nodup_told _)

namespace Script

/-- A pass over a text without a dollar sign makes writes that do not depend on the variables, and
among them adds to no list that it has not written itself. -/
theorem exists_news_of_noDollar
    (closures : Closures)
    {text : Text}
    (noDollar : '$' ∉ text) :
    ∃ (mapping : Mapping) (news : Journal),
      Event.GrowsLists news.events ∧
        ∀ restricted journal,
          parse closures restricted journal text = (mapping, news.onto journal) := by
  obtain ⟨mapping, news, _, alone, _⟩ :=
    parse_eq_onto closures (.inl noDollar : NamesUnread text true) {}
  refine ⟨mapping, news, ?_, ?_⟩
  · have faithful : (Session.ofText text true {}).journal.Faithful :=
      Journal.faithful_empty
    obtain ⟨last, coherent, _, run⟩ :=
      State.invariant_coherent.run closures (State.coherent_start faithful {} true) rfl
    have leftThere : news = last.session.journal := by
      have parsed : parse closures true {} text = (last.frame.entries, last.session.journal) :=
        congrArg (fun read : Session × Mapping => (read.2, read.1.journal)) run
      exact congrArg Prod.snd (alone.symm.trans parsed)
    rw [leftThere]
    exact coherent.journal.growsLists
  · intro restricted journal
    obtain ⟨otherMapping, otherNews, _, otherAlone, here⟩ :=
      parse_eq_onto closures (.inl noDollar : NamesUnread text restricted) journal
    obtain ⟨rfl, rfl⟩ := Prod.mk.inj (alone.symm.trans otherAlone)
    exact here

/--
To parse a text without a dollar sign once more changes nothing.  Over the variables that the first
pass leaves, the second pass denotes the same mapping and leaves the same names in the same order
with the same values.  Both make the same writes in the same order; each list they add to they have
written themselves before, so the second pass adds to no list that the first one has left.  Hence
the mapping and the variables that a project leaves, whose main file is such a text, are those after
the first pass over this file, whatever root files have been read before.
-/
theorem parse_again
    (closures : Closures)
    (text : Text)
    (noDollar : '$' ∉ text)
    (restricted otherRestricted : Bool)
    (journal : Journal) :
    let first := parse closures restricted journal text
    let second := parse closures otherRestricted first.2 text
    (second.1 = first.1 ∧
      second.2.table = first.2.table ∧
      ∃ news : List Event,
        first.2.events = news ++ journal.events ∧
          second.2.events = news ++ first.2.events ∧
          ∀ later name items earlier, news = later ++ .variableGrown name items :: earlier →
            ∃ value, Event.variableSet name value ∈ earlier) ∧
      ∀ (files : Files) (project : Project) (seeded : Journal),
        files.scriptText project.path = .ok text →
          Project.passRoots files restricted journal project.roots = (.ok (), seeded) →
            ∃ collected last : Journal,
              Project.pass files restricted seeded .first project.path =
                  (.ok (parse Closures.standard restricted journal text).1, collected) ∧
                Project.parse files restricted journal project =
                  (.ok (parse Closures.standard restricted journal text).1, last) ∧
                last.table = collected.table := by
  intro first second
  obtain ⟨mapping, news, growsLists, parsed⟩ := exists_news_of_noDollar closures noDollar
  have firstShape : first = (mapping, news.onto journal) := parsed restricted journal
  have secondShape : second = (mapping, news.onto (news.onto journal)) := by
    have leftByFirst : first.2 = news.onto journal := congrArg Prod.snd firstShape
    rw [← parsed otherRestricted (news.onto journal), ← leftByFirst]
  refine ⟨⟨?_, ?_, news.events, ?_, ?_, ?_⟩, ?_⟩
  · rw [firstShape, secondShape]
  · rw [firstShape, secondShape]
    exact growsLists.table_onto_onto journal
  · rw [firstShape]
    rfl
  · rw [firstShape, secondShape]
    rfl
  · exact fun later name items earlier shape => growsLists.exists_variableSet shape
  · intro files project seeded readable rootsRead
    obtain ⟨result, written, writtenGrows, passed⟩ :=
      exists_news_of_noDollar Closures.standard noDollar
    have pass (label : PassLabel) (before : Journal) :
        Project.pass files restricted before label project.path =
          (.ok result,
            (written.onto before).report
              (.passComplete project.path label result.length
                (written.onto before).table.size)) := by
      unfold Project.pass
      rw [readable]
      dsimp only
      rw [passed]
    have firstPass := pass .first seeded
    have whole :
        Project.parse files restricted journal project =
          Project.pass files restricted
            (Project.pass files restricted seeded .first project.path).2 .final project.path := by
      unfold Project.parse
      rw [rootsRead]
      dsimp only
      rw [firstPass]
    rw [firstPass, pass .final] at whole
    rw [passed]
    exact ⟨_, _, firstPass, whole, writtenGrows.table_onto_onto seeded⟩

/-- A text with lists that are shared with variables and added to, one of them from a block without
a key and one inside `dependencies`. -/
def sharingText : Text :=
  "\x7b\next.l = ['1']\n\x7d\next.l = 2\ndependencies \x7b\nm = ['3']\nm 4\n\x7d".toList

/-- Files of which the main one is this text, and the root one writes a variable of it too. -/
def sharingFiles : Files :=
  FileTree.files [
    (["r".toList], "ext \x7b l 0 \x7d".toList.map fun ch => UInt8.ofNat ch.toNat),
    (["m".toList], sharingText.map fun ch => UInt8.ofNat ch.toNat)]

/-- Lists that are shared and added to are the same after one more pass, also after a root file. -/
theorem parse_again_sharedLists :
    let known : Journal := ⟨⟨[("l".toList, .text "0".toList)]⟩, []⟩
    let first := parse Closures.standard true known sharingText
    let second := parse Closures.standard false first.2 sharingText
    '$' ∉ sharingText ∧
      second.1 = first.1 ∧
      second.2.table = first.2.table ∧
      ∃ collected last seeded : Journal,
        Project.passRoots sharingFiles true known ["r".toList] = (.ok (), seeded) ∧
          Project.pass sharingFiles true seeded .first "m".toList = (.ok first.1, collected) ∧
          Project.parse sharingFiles true known ⟨"m".toList, ["r".toList]⟩ = (.ok first.1, last) ∧
          last.table = collected.table := by
  intro known first second
  have noDollar : '$' ∉ sharingText := by decide
  have readable : sharingFiles.scriptText "m".toList = .ok sharingText := by decide
  have rootText : sharingFiles.scriptText "r".toList = .ok "ext \x7b l 0 \x7d".toList := by decide
  have rootsRead :
      ∃ seeded, Project.passRoots sharingFiles true known ["r".toList] = (.ok (), seeded) := by
    unfold Project.passRoots Project.pass
    rw [rootText]
    exact ⟨_, rfl⟩
  obtain ⟨seeded, rootsShape⟩ := rootsRead
  obtain ⟨⟨sameMapping, sameTable, _⟩, ofProject⟩ :=
    parse_again Closures.standard sharingText noDollar true false known
  obtain ⟨collected, last, firstPass, whole, lastTable⟩ :=
    ofProject sharingFiles ⟨"m".toList, ["r".toList]⟩ seeded readable rootsShape
  exact
    ⟨noDollar, sameMapping, sameTable, collected, last, seeded, rootsShape, firstPass, whole,
      lastTable⟩

end Script

end GradleScript
