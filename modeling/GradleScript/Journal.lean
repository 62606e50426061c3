import GradleScript.Event
import GradleScript.Variables

namespace GradleScript

/-!
# Journals

A journal is a variable table together with the events of the run so far.  Whatever changes the
table is reported, so the events tell how the table came to be what it is.
-/

/-- A variable table and the events of the run so far, latest first. -/
structure Journal where
  table : Variables := {}
  events : List Event := []

namespace Journal

/-- Report an event. -/
def report (journal : Journal) (event : Event) : Journal :=
  { journal with events := event :: journal.events }

/-- Write a value under a name without its marker.  A name that is then empty is ignored. -/
def set (journal : Journal) (name : Text) (value : Value) : Journal :=
  let bare := stripExt name
  if bare.isEmpty then
    journal
  else
    ⟨journal.table.set bare value, .variableSet bare value :: journal.events⟩

/-- Write every entry of a mapping. -/
def update (journal : Journal) (entries : Mapping) : Journal :=
  entries.foldl (fun written entry => written.set entry.1 entry.2) journal

/-- The entries of a mapping that carry the marker of extra properties. -/
def extEntries (entries : Mapping) : Mapping :=
  entries.filter fun entry => extMarker.isPrefixOf entry.1

/-- Write every entry of a mapping that carries the marker. -/
def updateExt (journal : Journal) (entries : Mapping) : Journal :=
  journal.update (extEntries entries)

/-- Add items to the list that a variable holds. -/
def grow (journal : Journal) (name : Text) (items : List Value) : Journal :=
  ⟨journal.table.grow name items, .variableGrown name items :: journal.events⟩

/-- The text that stands for a name: its rendered value, or else the fallback. -/
def resolve (journal : Journal) (name fallback : Text) : Text × Journal :=
  match journal.table.get? name with
  | some value =>
      (value.spliced, journal.report (.nameResolved name))
  | none =>
      (fallback, journal.report (.nameUnresolved name))

end Journal

end GradleScript
