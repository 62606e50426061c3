import GradleScript.Journal

namespace GradleScript

/-!
# Log records

A log record is a dotted event name with named values.  Not every event is worth a record: a name
that was resolved, and a list that grew, leave none.
-/

/-- The text of a pass label. -/
def PassLabel.text : PassLabel → Text
  | .root => "root".toList
  | .first => "first".toList
  | .final => "final".toList

namespace Log

/-- An event name with its named values, in order. -/
structure Record where
  event : Text
  fields : Mapping := []
  deriving DecidableEq

/-- The record of an event, when it leaves one. -/
def Record.ofEvent? : Event → Option Record
  | .variableSet name _ =>
      some ⟨"variables.set".toList, [("name".toList, .text name)]⟩
  | .variableGrown _ _ =>
      none
  | .nameResolved _ =>
      none
  | .nameUnresolved name =>
      some ⟨"variables.unresolved".toList, [("name".toList, .text name)]⟩
  | .strayBlockEnd position =>
      some ⟨"parser.stray_block_end".toList, [("pos".toList, .integer position)]⟩
  | .globalVariables block count =>
      some ⟨"parser.global_variables".toList,
        [("block".toList, .text block), ("count".toList, .integer count)]⟩
  | .passComplete path label keys names =>
      some ⟨"driver.pass_complete".toList,
        [("path".toList, .text path), ("pass_label".toList, .text label.text),
          ("keys".toList, .integer keys), ("variables".toList, .integer names)]⟩

end Log

/-- The records of a journal, in the order of their events. -/
def Journal.records (journal : Journal) : List Log.Record :=
  journal.events.reverse.filterMap Log.Record.ofEvent?

end GradleScript
