import GradleScript.Proofs.Value.Merging

namespace GradleScript

/-!
# Merging in place

Mappings can be kept as objects, each of which is known by its address and can be changed in place.
An object refers to the objects of the mappings in it, and several can refer to the same one.  To
merge one object into another one changes the latter, entry by entry; where both have a mapping
under a key, a copy is made and merged, and takes the place of the one that was there.  What the
merged object denotes is what merging mappings says, and no other object is changed.
-/

/-! ## Objects -/

/-- Where an object stands. -/
abbrev Address := Nat

/-- What an object has under a key. -/
inductive Held where
  | scalar (value : Value)
  | list (items : List Held)
  | repository (kind : Text) (data : Address)
  | mapping (address : Address)

/-- Keys with what is held under them, in insertion order. -/
abbrev Object := List (Text × Held)

/-- All objects there are. -/
abbrev Heap := List Object

/-- Write under a key, at its place when it is there and at the end otherwise. -/
def Object.put : Object → Text → Held → Object
  | [], key, held =>
      [(key, held)]
  | (present, current) :: rest, key, held =>
      if present == key then
        (present, held) :: rest
      else
        (present, current) :: put rest key held

/-- Whether a value is neither a list nor made of keys with values. -/
def Value.IsScalar : Value → Prop
  | .list _ | .repository _ _ | .mapping _ => False
  | _ => True

mutual

/-- Whether a value is what is held, where only objects at visible addresses are looked at. -/
inductive Denotes (heap : Heap) (visible : Address → Prop) : Held → Value → Prop where
  | scalar {value : Value}
      (isScalar : value.IsScalar) :
      Denotes heap visible (.scalar value) value
  | list {items : List Held} {values : List Value}
      (ofItems : DenotesItems heap visible items values) :
      Denotes heap visible (.list items) (.list values)
  | repository {kind : Text} {address : Address} {object : Object} {data : List (Text × Value)}
      (isVisible : visible address)
      (stands : heap[address]? = some object)
      (ofEntries : DenotesEntries heap visible object data) :
      Denotes heap visible (.repository kind address) (.repository kind data)
  | mapping {address : Address} {object : Object} {entries : List (Text × Value)}
      (isVisible : visible address)
      (stands : heap[address]? = some object)
      (ofEntries : DenotesEntries heap visible object entries) :
      Denotes heap visible (.mapping address) (.mapping entries)

/-- Whether values are, in order, what is held. -/
inductive DenotesItems (heap : Heap) (visible : Address → Prop) :
    List Held → List Value → Prop where
  | nil :
      DenotesItems heap visible [] []
  | cons {held : Held} {value : Value} {items : List Held} {values : List Value}
      (first : Denotes heap visible held value)
      (later : DenotesItems heap visible items values) :
      DenotesItems heap visible (held :: items) (value :: values)

/-- Whether the entries of a mapping are, in order, those of an object. -/
inductive DenotesEntries (heap : Heap) (visible : Address → Prop) :
    Object → List (Text × Value) → Prop where
  | nil :
      DenotesEntries heap visible [] []
  | cons {key : Text} {held : Held} {value : Value} {object : Object}
      {entries : List (Text × Value)}
      (first : Denotes heap visible held value)
      (later : DenotesEntries heap visible object entries) :
      DenotesEntries heap visible ((key, held) :: object) ((key, value) :: entries)

end

/-! ## What depends on which objects -/

section

variable {heap after : Heap} {visible visibleAfter : Address → Prop}

mutual

/-- What is held denotes the same as long as the objects that were looked at are as they were. -/
theorem Denotes.congr
    (same :
      ∀ address object, visible address → heap[address]? = some object →
        visibleAfter address ∧ after[address]? = some object)
    {held : Held} {value : Value} :
    Denotes heap visible held value → Denotes after visibleAfter held value
  | .scalar isScalar =>
      .scalar isScalar
  | .list ofItems =>
      .list (ofItems.congr same)
  | .repository isVisible stands ofEntries =>
      have unchanged := same _ _ isVisible stands
      .repository unchanged.1 unchanged.2 (ofEntries.congr same)
  | .mapping isVisible stands ofEntries =>
      have unchanged := same _ _ isVisible stands
      .mapping unchanged.1 unchanged.2 (ofEntries.congr same)

/-- Items denote the same values where the objects that they are looked at through are the same. -/
theorem DenotesItems.congr
    (same :
      ∀ address object, visible address → heap[address]? = some object →
        visibleAfter address ∧ after[address]? = some object)
    {items : List Held} {values : List Value} :
    DenotesItems heap visible items values → DenotesItems after visibleAfter items values
  | .nil =>
      .nil
  | .cons first later =>
      .cons (first.congr same) (later.congr same)

/-- Entries denote the same values where the objects that they are looked at through are the
same. -/
theorem DenotesEntries.congr
    (same :
      ∀ address object, visible address → heap[address]? = some object →
        visibleAfter address ∧ after[address]? = some object)
    {object : Object} {entries : List (Text × Value)} :
    DenotesEntries heap visible object entries → DenotesEntries after visibleAfter object entries
  | .nil =>
      .nil
  | .cons first later =>
      .cons (first.congr same) (later.congr same)

end

mutual

/-- What is held denotes one value only. -/
theorem Denotes.unique
    {held : Held} {value other : Value} :
    Denotes heap visible held value → Denotes heap visibleAfter held other → value = other
  | .scalar _, .scalar _ =>
      rfl
  | .list ofItems, .list otherItems =>
      congrArg Value.list (ofItems.unique otherItems)
  | .repository _ stands ofEntries, .repository _ standsToo otherEntries => by
      cases stands.symm.trans standsToo
      rw [ofEntries.unique otherEntries]
  | .mapping _ stands ofEntries, .mapping _ standsToo otherEntries => by
      cases stands.symm.trans standsToo
      rw [ofEntries.unique otherEntries]

/-- Items denote one list of values. -/
theorem DenotesItems.unique
    {items : List Held} {values others : List Value} :
    DenotesItems heap visible items values → DenotesItems heap visibleAfter items others →
      values = others
  | .nil, .nil =>
      rfl
  | .cons first later, .cons otherFirst otherLater => by
      rw [first.unique otherFirst, later.unique otherLater]

/-- Entries denote one mapping. -/
theorem DenotesEntries.unique
    {object : Object} {entries others : List (Text × Value)} :
    DenotesEntries heap visible object entries → DenotesEntries heap visibleAfter object others →
      entries = others
  | .nil, .nil =>
      rfl
  | .cons first later, .cons otherFirst otherLater => by
      rw [first.unique otherFirst, later.unique otherLater]

end

mutual

/-- What is smaller than the mapping of an object is denoted without that object. -/
theorem Denotes.without
    {target : Address} {whole : Mapping}
    (denotes : Denotes heap visible (.mapping target) (.mapping whole))
    (others : ∀ address, visible address → address ≠ target → visibleAfter address)
    {held : Held} {value : Value}
    (smaller : sizeOf value < sizeOf (Value.mapping whole)) :
    Denotes heap visible held value → Denotes heap visibleAfter held value
  | .scalar isScalar =>
      .scalar isScalar
  | .list ofItems =>
      .list (ofItems.without denotes others (by
        simp only [Value.list.sizeOf_spec] at smaller
        omega))
  | .repository isVisible stands ofEntries => by
      simp only [Value.repository.sizeOf_spec, Value.mapping.sizeOf_spec] at smaller
      refine .repository (others _ isVisible ?_) stands
        (ofEntries.without denotes others (by simp only [Value.mapping.sizeOf_spec]; omega))
      rintro rfl
      cases denotes with
      | mapping _ standsToo ofWhole =>
          cases stands.symm.trans standsToo
          rw [ofEntries.unique ofWhole] at smaller
          omega
  | .mapping isVisible stands ofEntries => by
      have entriesSmaller := smaller
      simp only [Value.mapping.sizeOf_spec] at entriesSmaller
      refine .mapping (others _ isVisible ?_) stands
        (ofEntries.without denotes others (by simp only [Value.mapping.sizeOf_spec]; omega))
      rintro rfl
      rw [denotes.unique (.mapping isVisible stands ofEntries)] at smaller
      exact Nat.lt_irrefl _ smaller

/-- What items denote is smaller than a mapping, so it is not looked at through the object of the
mapping. -/
theorem DenotesItems.without
    {target : Address} {whole : Mapping}
    (denotes : Denotes heap visible (.mapping target) (.mapping whole))
    (others : ∀ address, visible address → address ≠ target → visibleAfter address)
    {items : List Held} {values : List Value}
    (smaller : sizeOf values < sizeOf (Value.mapping whole)) :
    DenotesItems heap visible items values → DenotesItems heap visibleAfter items values
  | .nil =>
      .nil
  | .cons first later => by
      simp only [List.cons.sizeOf_spec] at smaller
      exact
        .cons (Denotes.without denotes others (by omega) first)
          (later.without denotes others (by omega))

/-- What entries denote is smaller than a mapping, so it is not looked at through the object of the
mapping. -/
theorem DenotesEntries.without
    {target : Address} {whole : Mapping}
    (denotes : Denotes heap visible (.mapping target) (.mapping whole))
    (others : ∀ address, visible address → address ≠ target → visibleAfter address)
    {object : Object} {entries : List (Text × Value)}
    (smaller : sizeOf entries < sizeOf (Value.mapping whole)) :
    DenotesEntries heap visible object entries → DenotesEntries heap visibleAfter object entries
  | .nil =>
      .nil
  | .cons first later => by
      simp only [List.cons.sizeOf_spec, Prod.mk.sizeOf_spec] at smaller
      exact
        .cons (Denotes.without denotes others (by omega) first)
          (later.without denotes others (by omega))

end

/-! ## Entries of objects -/

/-- What is held under a key denotes the value under it. -/
theorem DenotesEntries.lookup
    {object : Object} {entries : Mapping}
    (ofEntries : DenotesEntries heap visible object entries)
    (key : Text) :
    Option.Rel (Denotes heap visible) (object.lookup key) (entries.get? key) := by
  induction entries generalizing object with
  | nil =>
      cases ofEntries
      exact .none
  | cons entry entries inductionHypothesis =>
      obtain ⟨present, current⟩ := entry
      cases ofEntries with
      | cons first later =>
          rw [List.lookup_cons, Mapping.get?_cons]
          by_cases isKey : present = key
          · subst isKey
            simpa using Option.Rel.some first
          · have notKey : (key == present) = false := by simpa using Ne.symm isKey
            rw [notKey, if_neg isKey]
            exact inductionHypothesis later

/-- Under a key that is there, something is held that denotes the value. -/
theorem DenotesEntries.exists_lookup
    {object : Object} {entries : Mapping} {key : Text} {value : Value}
    (ofEntries : DenotesEntries heap visible object entries)
    (isThere : entries.get? key = some value) :
    ∃ held, object.lookup key = some held ∧ Denotes heap visible held value := by
  have under := ofEntries.lookup key
  rw [isThere] at under
  generalize object.lookup key = found at under ⊢
  cases under with
  | some ofHeld =>
      exact ⟨_, rfl, ofHeld⟩

/-- What is held under a key denotes a value that is there. -/
theorem DenotesEntries.exists_get?
    {object : Object} {entries : Mapping} {key : Text} {held : Held}
    (ofEntries : DenotesEntries heap visible object entries)
    (isHeld : object.lookup key = some held) :
    ∃ value, entries.get? key = some value ∧ Denotes heap visible held value := by
  have under := ofEntries.lookup key
  rw [isHeld] at under
  generalize entries.get? key = found at under ⊢
  cases under with
  | some ofHeld =>
      exact ⟨_, rfl, ofHeld⟩

/-- Only an object denotes a mapping. -/
theorem Denotes.exists_address
    {held : Held} {entries : Mapping}
    (ofHeld : Denotes heap visible held (.mapping entries)) :
    ∃ address, held = .mapping address := by
  cases ofHeld with
  | scalar isScalar =>
      exact isScalar.elim
  | mapping =>
      exact ⟨_, rfl⟩

/-- The entries of the object of a mapping denote those of the mapping. -/
theorem Denotes.exists_object
    {address : Address} {entries : Mapping}
    (ofHeld : Denotes heap visible (.mapping address) (.mapping entries)) :
    ∃ object, heap[address]? = some object ∧ DenotesEntries heap visible object entries := by
  cases ofHeld with
  | mapping _ stands ofEntries =>
      exact ⟨_, stands, ofEntries⟩

/-- An object denotes nothing but a mapping. -/
theorem Denotes.exists_entries
    {address : Address} {value : Value}
    (ofHeld : Denotes heap visible (.mapping address) value) :
    ∃ entries, value = .mapping entries := by
  cases ofHeld with
  | mapping =>
      exact ⟨_, rfl⟩

/-- An object that gets a value under a key denotes the mapping that gets what the value denotes. -/
theorem DenotesEntries.put
    {object : Object} {entries : Mapping} {held : Held} {value : Value}
    (ofEntries : DenotesEntries heap visible object entries)
    (ofHeld : Denotes heap visible held value)
    (key : Text) :
    DenotesEntries heap visible (object.put key held) (entries.put key value) := by
  induction entries generalizing object with
  | nil =>
      cases ofEntries
      exact .cons ofHeld .nil
  | cons entry entries inductionHypothesis =>
      cases ofEntries with
      | cons first later =>
          rw [Object.put, Mapping.put]
          split
          · exact .cons ofHeld later
          · exact .cons first (inductionHypothesis later)

end

/-! ## Merging -/

namespace Heap

/-- The object at an address. -/
def object (heap : Heap) (address : Address) : Object :=
  heap[address]?.getD []

/-- Write under a key of the object at an address. -/
def write (heap : Heap) (target : Address) (key : Text) (held : Held) : Heap :=
  heap.modify target fun object => object.put key held

/-- Merge what comes under a key into the object at an address.  Two mappings are merged into a
copy, which is made by `copy` and takes the place of the first one. -/
def mergeEntry
    (copy : Heap → Address → Address → Option (Heap × Address))
    (target : Address)
    (heap : Heap)
    (entry : Text × Held) :
    Option Heap :=
  match (heap.object target).lookup entry.1, entry.2 with
  | some (.mapping current), .mapping incoming =>
      (copy heap current incoming).map fun merged =>
        merged.1.write target entry.1 (.mapping merged.2)
  | _, held =>
      some (heap.write target entry.1 held)

/-- Merge the object at one address into the one at another address, entry by entry. -/
def mergeEntries
    (copy : Heap → Address → Address → Option (Heap × Address))
    (heap : Heap)
    (target source : Address) :
    Option Heap :=
  (heap.object source).foldlM (mergeEntry copy target) heap

/-- Merge an object into a copy of another one: the objects after that, and where the copy stands.
Copies can be made in the course of each other to some depth only. -/
def mergeCopy : Nat → Heap → Address → Address → Option (Heap × Address)
  | 0, _, _, _ =>
      none
  | depth + 1, heap, base, source =>
      (mergeEntries (mergeCopy depth) (heap ++ [heap.object base]) heap.length source).map
        fun merged => (merged, heap.length)

/-- Merge an object into another one in place. -/
def mergeInto (depth : Nat) (heap : Heap) (target source : Address) : Option Heap :=
  mergeEntries (mergeCopy depth) heap target source

/-- Whether objects have been added, and those at some addresses are as they were. -/
structure Keeps (heap after : Heap) (kept : Address → Prop) : Prop where
  grows : heap.length ≤ after.length
  same :
    ∀ address object, kept address → heap[address]? = some object → after[address]? = some object

/-- Whether an object denotes entries, looked at through visible objects. -/
def Holds (heap : Heap) (visible : Address → Prop) (target : Address) (entries : Mapping) : Prop :=
  ∃ object, heap[target]? = some object ∧ DenotesEntries heap visible object entries

/-- Objects that have been kept twice have been kept. -/
theorem Keeps.trans
    {heap between after : Heap} {kept : Address → Prop}
    (first : heap.Keeps between kept)
    (second : between.Keeps after kept) :
    heap.Keeps after kept :=
  ⟨Nat.le_trans first.grows second.grows, fun address object isKept stands =>
    second.same address object isKept (first.same address object isKept stands)⟩

/-- Fewer objects are kept where more are. -/
theorem Keeps.mono
    {heap after : Heap} {kept fewer : Address → Prop}
    (keeps : heap.Keeps after kept)
    (isKept : ∀ address, fewer address → kept address) :
    heap.Keeps after fewer :=
  ⟨keeps.grows, fun address object isFewer => keeps.same address object (isKept address isFewer)⟩

/-- What is visible is kept when nothing but a hidden object changes. -/
theorem Keeps.of_hidden
    {heap after : Heap} {visible : Address → Prop} {target : Address}
    (keeps : heap.Keeps after (· ≠ target))
    (hidden : ¬ visible target) :
    heap.Keeps after visible :=
  keeps.mono fun _ isVisible isTarget => hidden (isTarget ▸ isVisible)

/-- What is looked at through objects that are kept denotes the same. -/
theorem Keeps.denotesEntries
    {heap after : Heap} {kept : Address → Prop}
    (keeps : heap.Keeps after kept)
    {object : Object} {entries : Mapping}
    (denotes : DenotesEntries heap kept object entries) :
    DenotesEntries after kept object entries :=
  denotes.congr fun address object isKept stands =>
    ⟨isKept, keeps.same address object isKept stands⟩

/-- The object at an address is the one that stands there. -/
theorem object_of_stands
    {heap : Heap} {address : Address} {object : Object}
    (stands : heap[address]? = some object) :
    heap.object address = object := by
  rw [Heap.object, stands]
  rfl

section

variable {copy : Heap → Address → Address → Option (Heap × Address)} {heap : Heap}
  {visible : Address → Prop} {target : Address} {current : Mapping} {key : Text} {held : Held}
  {value : Value}

/-- Writing under a key of an object changes nothing else. -/
theorem keeps_write
    (heap : Heap) (target : Address) (key : Text) (held : Held) :
    heap.Keeps (heap.write target key held) (· ≠ target) := by
  refine ⟨Nat.le_of_eq (List.length_modify ..).symm, ?_⟩
  intro address object isOther stands
  simp [write, Ne.symm isOther, stands]

/-- An object that is written has what is written, if it is looked at through other objects. -/
theorem Holds.write
    (holds : heap.Holds visible target current)
    (hidden : ¬ visible target)
    (ofHeld : Denotes heap visible held value)
    (key : Text) :
    (heap.write target key held).Holds visible target (current.put key value) := by
  obtain ⟨object, stands, ofEntries⟩ := holds
  have keeps : heap.Keeps (heap.write target key held) visible :=
    (keeps_write heap target key held).of_hidden hidden
  refine ⟨object.put key held, ?_, keeps.denotesEntries (ofEntries.put ofHeld key)⟩
  simp [Heap.write, stands]

/-- Whether copies into which some entries have been merged are made as merging says, without a
change to any object that was there. -/
def MergesCopies
    (copy : Heap → Address → Address → Option (Heap × Address)) (incoming : Mapping) : Prop :=
  ∀ (heap : Heap) (visible : Address → Prop) (base source : Address) (current : Mapping),
    (∀ address, heap.length ≤ address → visible address) →
      Denotes heap visible (.mapping base) (.mapping current) →
        Denotes heap visible (.mapping source) (.mapping incoming) →
          ∃ after,
            copy heap base source = some (after, heap.length) ∧
              heap.Keeps after (fun _ => True) ∧
                Denotes after visible (.mapping heap.length)
                  (.mapping (Mapping.merge current incoming))

/-- Whether a value, if it is a mapping, is merged as merging says. -/
def MergesCopiesOf
    (copy : Heap → Address → Address → Option (Heap × Address)) (value : Value) : Prop :=
  ∀ incoming, value = .mapping incoming → MergesCopies copy incoming

/-- Where both have a mapping under a key, the merged copy of the first one takes its place. -/
theorem mergeEntry_of_mappings
    {nested incoming : Mapping}
    (merges : MergesCopies copy incoming)
    (holds : heap.Holds visible target current)
    (hidden : ¬ visible target)
    (fresh : ∀ address, heap.length ≤ address → visible address)
    (isThere : current.get? key = some (.mapping nested))
    (ofHeld : Denotes heap visible held (.mapping incoming)) :
    ∃ after,
      mergeEntry copy target heap (key, held) = some after ∧ heap.Keeps after (· ≠ target) ∧
        after.Holds visible target
          (current.put key (.mapping (Mapping.merge nested incoming))) := by
  obtain ⟨object, stands, ofEntries⟩ := holds
  obtain ⟨base, isBase, ofBase⟩ : ∃ base,
      object.lookup key = some (.mapping base) ∧
        Denotes heap visible (.mapping base) (.mapping nested) := by
    obtain ⟨held, isHeld, ofHeld⟩ := ofEntries.exists_lookup isThere
    obtain ⟨base, rfl⟩ := ofHeld.exists_address
    exact ⟨base, isHeld, ofHeld⟩
  obtain ⟨source, rfl⟩ := ofHeld.exists_address
  obtain ⟨merged, copied, keeps, ofCopy⟩ :=
    merges heap visible base source nested fresh ofBase ofHeld
  have stillHolds : merged.Holds visible target current :=
    ⟨object, keeps.same _ _ trivial stands,
      (keeps.mono fun _ _ => trivial).denotesEntries ofEntries⟩
  refine ⟨merged.write target key (.mapping heap.length), ?_, ?_,
    stillHolds.write hidden ofCopy key⟩
  · unfold mergeEntry
    rw [object_of_stands stands, isBase]
    dsimp only
    rw [copied]
    rfl
  · exact (keeps.mono fun _ _ => trivial).trans (keeps_write merged target key _)

/-- Where not both have a mapping under a key, what comes is written. -/
theorem mergeEntry_of_others
    (copy : Heap → Address → Address → Option (Heap × Address))
    (holds : heap.Holds visible target current)
    (others : ∀ nested incoming,
      current.get? key = some (.mapping nested) → value ≠ .mapping incoming)
    (ofHeld : Denotes heap visible held value) :
    mergeEntry copy target heap (key, held) = some (heap.write target key held) := by
  obtain ⟨object, stands, ofEntries⟩ := holds
  unfold mergeEntry
  rw [object_of_stands stands]
  split
  · next base source isBase isSource =>
      obtain ⟨present, isThere, ofBase⟩ := ofEntries.exists_get? isBase
      obtain ⟨nested, rfl⟩ := ofBase.exists_entries
      cases (show held = .mapping source from isSource)
      obtain ⟨incoming, rfl⟩ := ofHeld.exists_entries
      exact (others nested incoming isThere rfl).elim
  · rfl

/-- One entry is merged in place: nothing else is changed, and the object has what is merged. -/
theorem mergeEntry_spec
    (deeper : MergesCopiesOf copy value)
    (holds : heap.Holds visible target current)
    (hidden : ¬ visible target)
    (fresh : ∀ address, heap.length ≤ address → visible address)
    (ofHeld : Denotes heap visible held value)
    (key : Text) :
    ∃ after,
      mergeEntry copy target heap (key, held) = some after ∧ heap.Keeps after (· ≠ target) ∧
        after.Holds visible target
          (current.put key (Mapping.mergeValue (current.get? key) value)) := by
  by_cases areMappings : ∃ nested incoming,
      current.get? key = some (.mapping nested) ∧ value = .mapping incoming
  · obtain ⟨nested, incoming, isThere, rfl⟩ := areMappings
    rw [isThere, Mapping.mergeValue.eq_1]
    exact mergeEntry_of_mappings (deeper incoming rfl) holds hidden fresh isThere ofHeld
  · have others (nested incoming : Mapping) (isThere : current.get? key = some (.mapping nested)) :
        value ≠ .mapping incoming :=
      fun isMapping => areMappings ⟨nested, incoming, isThere, isMapping⟩
    rw [Mapping.mergeValue.eq_2 (current.get? key) value others]
    exact
      ⟨_, mergeEntry_of_others copy holds others ofHeld, keeps_write heap target key held,
        holds.write hidden ofHeld key⟩

/-- Entries are merged in place, one after the other. -/
theorem mergeEntries_spec
    {object : Object} {entries : Mapping}
    (deeper : ∀ entry ∈ entries, MergesCopiesOf copy entry.2)
    (holds : heap.Holds visible target current)
    (hidden : ¬ visible target)
    (fresh : ∀ address, heap.length ≤ address → visible address)
    (ofEntries : DenotesEntries heap visible object entries) :
    ∃ after,
      object.foldlM (mergeEntry copy target) heap = some after ∧ heap.Keeps after (· ≠ target) ∧
        after.Holds visible target (Mapping.merge current entries) := by
  induction entries generalizing object heap current with
  | nil =>
      cases ofEntries
      exact ⟨heap, rfl, ⟨Nat.le_refl _, fun _ _ _ stands => stands⟩, by rwa [Mapping.merge]⟩
  | cons entry entries inductionHypothesis =>
      obtain ⟨key, value⟩ := entry
      rw [List.forall_mem_cons] at deeper
      cases ofEntries with
      | cons first later =>
          obtain ⟨between, merged, keeps, holdsBetween⟩ :=
            mergeEntry_spec deeper.1 holds hidden fresh first key
          have keepsVisible : heap.Keeps between visible := keeps.of_hidden hidden
          obtain ⟨after, mergedLater, keepsLater, holdsAfter⟩ :=
            inductionHypothesis deeper.2 holdsBetween
              (fun address isFresh => fresh address (Nat.le_trans keeps.grows isFresh))
              (keepsVisible.denotesEntries later)
          refine ⟨after, ?_, keeps.trans keepsLater, ?_⟩
          · rw [List.foldlM_cons, merged]
            exact mergedLater
          · rw [Mapping.merge]
            exact holdsAfter

end

/-- A copy is made of an object, and changed only while no other object refers to it. -/
theorem mergesCopies_mergeCopy
    {depth : Nat} {incoming : Mapping}
    (deeper : ∀ entry ∈ incoming, MergesCopiesOf (mergeCopy depth) entry.2) :
    MergesCopies (mergeCopy (depth + 1)) incoming := by
  intro heap visible base source current fresh ofBase ofSource
  obtain ⟨baseObject, standsBase, ofBaseEntries⟩ := ofBase.exists_object
  obtain ⟨sourceObject, standsSource, ofSourceEntries⟩ := ofSource.exists_object
  let copied : Heap := heap ++ [baseObject]
  let others (address : Address) : Prop := visible address ∧ address ≠ heap.length
  have stillStands (address : Address) (object : Object) (stands : heap[address]? = some object) :
      address ≠ heap.length ∧ copied[address]? = some object := by
    have inHeap : address < heap.length := (List.getElem?_eq_some_iff.mp stands).1
    exact ⟨Nat.ne_of_lt inHeap, (List.getElem?_append_left inHeap).trans stands⟩
  have keepsDenoting {object : Object} {entries : Mapping}
      (ofEntries : DenotesEntries heap visible object entries) :
      DenotesEntries copied others object entries :=
    ofEntries.congr fun address object isVisible stands =>
      ⟨⟨isVisible, (stillStands address object stands).1⟩, (stillStands address object stands).2⟩
  have holds : copied.Holds others heap.length current :=
    ⟨baseObject, List.getElem?_concat_length, keepsDenoting ofBaseEntries⟩
  have freshThere (address : Address) (isFresh : copied.length ≤ address) : others address := by
    have longer : copied.length = heap.length + 1 := List.length_append
    have later : heap.length < address := by omega
    exact ⟨fresh address (Nat.le_of_lt later), Nat.ne_of_gt later⟩
  obtain ⟨after, merged, keeps, object, standsCopy, ofCopy⟩ :=
    mergeEntries_spec deeper holds (fun isOther => isOther.2 rfl) freshThere
      (keepsDenoting ofSourceEntries)
  refine ⟨after, ?_, ⟨?_, ?_⟩, ?_⟩
  · have sourceThere : copied.object source = sourceObject :=
      object_of_stands (stillStands source sourceObject standsSource).2
    unfold mergeCopy mergeEntries
    rw [object_of_stands standsBase, sourceThere, merged]
    rfl
  · exact Nat.le_trans (by simp [copied]) keeps.grows
  · intro address object _ stands
    have there := stillStands address object stands
    exact keeps.same address object there.1 there.2
  · have isVisible := fresh heap.length (Nat.le_refl _)
    exact
      .mapping isVisible standsCopy (ofCopy.congr fun _ _ isOther stands => ⟨isOther.1, stands⟩)

mutual

/-- With enough depth every mapping is merged into copies, whatever is in it. -/
theorem exists_depth :
    (value : Value) → ∃ least, ∀ depth, least ≤ depth → MergesCopiesOf (mergeCopy depth) value
  | .mapping incoming => by
      obtain ⟨least, deepEnough⟩ := exists_depth_entries incoming
      refine ⟨least + 1, ?_⟩
      rintro depth isEnough _ ⟨⟩
      obtain ⟨shallower, rfl⟩ : ∃ shallower, depth = shallower + 1 :=
        Nat.exists_eq_add_one_of_ne_zero (by omega)
      exact mergesCopies_mergeCopy (deepEnough shallower (by omega))
  | .null | .boolean _ | .integer _ | .text _ | .list _ | .set _ | .repository _ _ =>
      ⟨0, fun _ _ _ isMapping => nomatch isMapping⟩

/-- Some depth is enough for the values of all entries at once. -/
theorem exists_depth_entries :
    (entries : List (Text × Value)) →
      ∃ least, ∀ depth, least ≤ depth →
        ∀ entry ∈ entries, MergesCopiesOf (mergeCopy depth) entry.2
  | [] =>
      ⟨0, fun _ _ _ member => nomatch member⟩
  | (_, value) :: entries => by
      obtain ⟨first, enoughForFirst⟩ := exists_depth value
      obtain ⟨later, enoughForLater⟩ := exists_depth_entries entries
      refine ⟨max first later, fun depth isEnough => List.forall_mem_cons.mpr ⟨?_, ?_⟩⟩
      · exact enoughForFirst depth (by omega)
      · exact enoughForLater depth (by omega)

end

/-- An object is merged into another one in place, of which it is no part, or into itself. -/
theorem mergeInto_spec
    {depth : Nat} {heap : Heap} {target source : Address} {current incoming : Mapping}
    (deeper : ∀ entry ∈ incoming, MergesCopiesOf (mergeCopy depth) entry.2)
    (ofTarget : Denotes heap (fun _ => True) (.mapping target) (.mapping current))
    (ofSource : Denotes heap (fun _ => True) (.mapping source) (.mapping incoming))
    (apart : source ≠ target → Denotes heap (· ≠ target) (.mapping source) (.mapping incoming)) :
    ∃ after,
      mergeInto depth heap target source = some after ∧ heap.Keeps after (· ≠ target) ∧
        Denotes after (fun _ => True) (.mapping target)
          (.mapping (Mapping.merge current incoming)) := by
  obtain ⟨object, standsTarget, ofEntries⟩ := ofTarget.exists_object
  obtain ⟨sourceObject, standsSource, ofSourceEntries⟩ : ∃ object,
      heap[source]? = some object ∧ DenotesEntries heap (· ≠ target) object incoming := by
    by_cases isTarget : source = target
    · subst isTarget
      obtain ⟨sourceObject, standsSource, ofSourceEntries⟩ := ofSource.exists_object
      refine ⟨sourceObject, standsSource, ofSourceEntries.without ofSource (fun _ _ => id) ?_⟩
      simp only [Value.mapping.sizeOf_spec]
      omega
    · exact (apart isTarget).exists_object
  have holds : heap.Holds (· ≠ target) target current := by
    refine ⟨object, standsTarget, ofEntries.without ofTarget (fun _ _ => id) ?_⟩
    simp only [Value.mapping.sizeOf_spec]
    omega
  have inHeap : target < heap.length := (List.getElem?_eq_some_iff.mp standsTarget).1
  obtain ⟨after, merged, keeps, objectAfter, standsAfter, ofAfter⟩ :=
    mergeEntries_spec deeper holds (fun isOther => isOther rfl)
      (fun _ isFresh => Nat.ne_of_gt (Nat.lt_of_lt_of_le inHeap isFresh)) ofSourceEntries
  refine ⟨after, ?_, keeps, ?_⟩
  · unfold mergeInto mergeEntries
    rw [object_of_stands standsSource]
    exact merged
  · exact .mapping trivial standsAfter (ofAfter.congr fun _ _ _ stands => ⟨trivial, stands⟩)

end Heap

namespace Mapping

/--
The laws of merging.  The keys of the second mapping that are new come after those of the first one.
Under a key that both have, two mappings are merged, and any other value that comes replaces the one
that is there; every other value stays.  A mapping is merged with itself, and what has been merged
is merged again, without effect.

With objects for the mappings: to merge a copy of one object with another one makes new objects, the
copy being the first of them, and changes none of those that were there.  To merge an object in
place changes no other one, and so the one that is merged into it denotes what it did, if the
changed one is no part of it or is the same.  Both ways the result denotes what has been merged.
-/
theorem merge_laws
    {current incoming : Mapping}
    (currentKeyed : WellKeyed current)
    (incomingKeyed : WellKeyed incoming) :
    keys (merge current incoming) =
        keys current ++ (keys incoming).filter (fun key => key ∉ keys current) ∧
      (∀ key,
        get? (merge current incoming) key =
          match current.get? key, incoming.get? key with
          | some (.mapping first), some (.mapping second) => some (.mapping (merge first second))
          | _, some value => some value
          | present, none => present) ∧
      merge current current = current ∧
      merge (merge current incoming) incoming = merge current incoming ∧
      ∃ least, ∀ depth, least ≤ depth → ∀ (heap : Heap) (target source : Address),
        Denotes heap (fun _ => True) (.mapping target) (.mapping current) →
          Denotes heap (fun _ => True) (.mapping source) (.mapping incoming) →
            (∃ after,
              Heap.mergeCopy depth heap target source = some (after, heap.length) ∧
                heap.Keeps after (fun _ => True) ∧
                Denotes after (fun _ => True) (.mapping heap.length)
                  (.mapping (merge current incoming))) ∧
            ((source ≠ target →
                Denotes heap (· ≠ target) (.mapping source) (.mapping incoming)) →
              ∃ after,
                Heap.mergeInto depth heap target source = some after ∧
                  heap.Keeps after (· ≠ target) ∧
                  Denotes after (fun _ => True) (.mapping target)
                    (.mapping (merge current incoming)) ∧
                  Denotes after (fun _ => True) (.mapping source) (.mapping incoming)) := by
  obtain ⟨least, deepEnough⟩ := Heap.exists_depth_entries incoming
  refine
    ⟨keys_merge incomingKeyed.distinct current,
      get?_merge_cases incomingKeyed.distinct current, merge_self currentKeyed,
      merge_again incomingKeyed current, least + 1, ?_⟩
  intro depth isEnough heap target source ofTarget ofSource
  obtain ⟨shallower, rfl⟩ : ∃ shallower, depth = shallower + 1 :=
    Nat.exists_eq_add_one_of_ne_zero (by omega)
  refine ⟨?_, ?_⟩
  · have deeper := deepEnough shallower (by omega)
    exact
      Heap.mergesCopies_mergeCopy deeper heap _ target source current (fun _ _ => trivial)
        ofTarget ofSource
  · intro apart
    have deeper := deepEnough (shallower + 1) (by omega)
    obtain ⟨after, merged, keeps, ofAfter⟩ :=
      Heap.mergeInto_spec deeper ofTarget ofSource apart
    refine ⟨after, merged, keeps, ofAfter, ?_⟩
    by_cases isTarget : source = target
    · -- What an object is merged into is the object itself, which has not been changed by that.
      subst isTarget
      cases ofTarget.unique ofSource
      rwa [merge_self currentKeyed] at ofAfter
    · exact (apart isTarget).congr fun address object isOther stands =>
        ⟨trivial, keeps.same address object isOther stands⟩

/-- Two mappings that conflict under one key and share an object under others. -/
theorem merge_laws_sharedObject :
    let current : Mapping :=
      [(['a'], .mapping [(['x'], .text ['1'])]), (['s'], .text ['1'])]
    let incoming : Mapping :=
      [(['a'], .mapping [(['x'], .mapping []), (['y'], .text ['2'])]),
        (['s'], .mapping [(['x'], .text ['1'])])]
    let merged : Mapping :=
      [(['a'], .mapping [(['x'], .mapping []), (['y'], .text ['2'])]),
        (['s'], .mapping [(['x'], .text ['1'])])]
    let heap : Heap :=
      [[(['a'], .mapping 2), (['s'], .scalar (.text ['1']))],
        [(['a'], .mapping 3), (['s'], .mapping 2)],
        [(['x'], .scalar (.text ['1']))],
        [(['x'], .mapping 4), (['y'], .scalar (.text ['2']))],
        []]
    WellKeyed current ∧ WellKeyed incoming ∧
      Denotes heap (fun _ => True) (.mapping 0) (.mapping current) ∧
      Denotes heap (fun _ => True) (.mapping 1) (.mapping incoming) ∧
      Denotes heap (· ≠ 0) (.mapping 1) (.mapping incoming) ∧
      merge current incoming = merged ∧
      ∃ depth after,
        Heap.mergeInto depth heap 0 1 = some after ∧
          Denotes after (fun _ => True) (.mapping 0) (.mapping merged) ∧
          Denotes after (fun _ => True) (.mapping 1) (.mapping incoming) := by
  intro current incoming merged heap
  have currentKeyed : WellKeyed current := by
    simp [current, WellKeyed, ValueWellKeyed]
  have incomingKeyed : WellKeyed incoming := by
    simp [incoming, WellKeyed, ValueWellKeyed]
  have scalar {visible : Address → Prop} (content : Text) :
      Denotes heap visible (.scalar (.text content)) (.text content) := .scalar trivial
  have shared {visible : Address → Prop} (isVisible : visible 2) :
      Denotes heap visible (.mapping 2) (.mapping [(['x'], .text ['1'])]) :=
    .mapping isVisible rfl (.cons (scalar _) .nil)
  have ofCurrent : Denotes heap (fun _ => True) (.mapping 0) (.mapping current) :=
    .mapping trivial rfl (.cons (shared trivial) (.cons (scalar _) .nil))
  have ofIncoming {visible : Address → Prop}
      (isVisible : ∀ address, address ≠ 0 → visible address) :
      Denotes heap visible (.mapping 1) (.mapping incoming) :=
    .mapping (isVisible 1 (by decide)) rfl
      (.cons
        (.mapping (isVisible 3 (by decide)) rfl
          (.cons (.mapping (isVisible 4 (by decide)) rfl .nil) (.cons (scalar _) .nil)))
        (.cons (shared (isVisible 2 (by decide))) .nil))
  have merges : merge current incoming = merged := by decide
  obtain ⟨_, _, _, _, least, deepEnough⟩ := merge_laws currentKeyed incomingKeyed
  obtain ⟨after, result, _, ofMerged, stillIncoming⟩ :=
    (deepEnough least (Nat.le_refl _) heap 0 1 ofCurrent (ofIncoming fun _ _ => trivial)).2
      fun _ => ofIncoming fun _ => id
  rw [merges] at ofMerged
  exact
    ⟨currentKeyed, incomingKeyed, ofCurrent, ofIncoming fun _ _ => trivial,
      ofIncoming fun _ => id, merges, least, after, result, ofMerged, stillIncoming⟩

end Mapping

end GradleScript
