import GradleScript.Closure
import GradleScript.Proofs.Value.Compatible
import GradleScript.Proofs.Value.Written
import GradleScript.Value.Json

namespace GradleScript

/-!
# Values in their slots

What a value may be depends on where it stands.  Under every key and in every list there are texts,
truth values, lists and mappings.  A repository stands in lists only.  A text without content stands
in the data of a repository only, and no key is empty.  A value for which all this holds, at every
depth, has a JSON form, and so has every mapping that is put together from such values.
-/

/-- Where a value stands. -/
inductive Slot where
  | underKey (key : Text)
  | inList
  | inSet
  deriving DecidableEq

namespace Value

/-- Whether a value stands directly in another one, at a slot, and whether that slot belongs to
the data of a repository. -/
inductive Holds : Value → Bool → Slot → Value → Prop where
  | item {items : List Value} {value : Value}
      (member : value ∈ items) :
      Holds (.list items) false .inList value
  | unordered {items : List Value} {value : Value}
      (member : value ∈ items) :
      Holds (.set items) false .inSet value
  | entry {entries : Mapping} {key : Text} {value : Value}
      (member : (key, value) ∈ entries) :
      Holds (.mapping entries) false (.underKey key) value
  | data {kind key : Text} {data : Mapping} {value : Value}
      (member : (key, value) ∈ data) :
      Holds (.repository kind data) true (.underKey key) value

/-- Whether a value stands in another one at any depth, at a slot, and whether inside the data of
a repository. -/
inductive Stands (whole : Value) : Bool → Slot → Value → Prop where
  | directly {inData : Bool} {slot : Slot} {value : Value}
      (holds : Holds whole inData slot value) :
      Stands whole inData slot value
  | deeper {inData inDataHere : Bool} {slot slotHere : Slot} {around value : Value}
      (stands : Stands whole inData slot around)
      (holds : Holds around inDataHere slotHere value) :
      Stands whole (inData || inDataHere) slotHere value

/-- Whether a value contains another one at any depth. -/
def Contains (whole value : Value) : Prop :=
  ∃ inData slot, whole.Stands inData slot value

/-- Whether a value may stand at a slot, which belongs to the data of a repository or not. -/
structure FitsAt (inData : Bool) (slot : Slot) (value : Value) : Prop where
  keyed : slot ≠ .underKey []
  denoted : value ≠ .null ∧ (∀ number, value ≠ .integer number) ∧ ∀ items, value ≠ .set items
  filled : value = .text [] → inData = true
  /-- A repository is what a directive denotes, and its kind is empty for one directive only. -/
  repository :
    ∀ kind data,
      value = .repository kind data →
        slot = .inList ∧
          ∃ key directive,
            key ≠ [] ∧
              directiveRepository key directive = value ∧ (kind = [] → key = ['(', ')'])
  notInItself : ¬ value.Contains value

/-- Whether a value may stand at a slot, and so may at every depth what stands in it. -/
inductive WellFormed : Bool → Slot → Value → Prop where
  | boolean {inData : Bool} {slot : Slot} (flag : Bool) :
      WellFormed inData slot (.boolean flag)
  | text {inData : Bool} {slot : Slot} {content : Text}
      (filled : content = [] → inData = true) :
      WellFormed inData slot (.text content)
  | list {inData : Bool} {slot : Slot} {items : List Value}
      (ofItems : ∀ item ∈ items, WellFormed inData .inList item) :
      WellFormed inData slot (.list items)
  | mapping {inData : Bool} {slot : Slot} {entries : Mapping}
      (keyed : ∀ entry ∈ entries, entry.1 ≠ [])
      (ofValues : ∀ entry ∈ entries, WellFormed inData (.underKey entry.1) entry.2) :
      WellFormed inData slot (.mapping entries)
  | repository {inData : Bool} {key kind : Text} {directive : Value} {data : Mapping}
      (named : key ≠ [])
      (denotes : directiveRepository key directive = .repository kind data)
      (keyed : ∀ entry ∈ data, entry.1 ≠ [])
      (ofValues : ∀ entry ∈ data, WellFormed true (.underKey entry.1) entry.2) :
      WellFormed inData .inList (.repository kind data)

/-! ## No value contains itself -/

/-- What a value holds is smaller than the value. -/
theorem Holds.sizeOf_lt
    {whole value : Value} {inData : Bool} {slot : Slot}
    (holds : whole.Holds inData slot value) :
    sizeOf value < sizeOf whole := by
  cases holds with
  | item member =>
      have smaller := List.sizeOf_lt_of_mem member
      simp only [Value.list.sizeOf_spec]
      omega
  | unordered member =>
      have smaller := List.sizeOf_lt_of_mem member
      simp only [Value.set.sizeOf_spec]
      omega
  | entry member =>
      have smaller := List.sizeOf_lt_of_mem member
      simp only [Value.mapping.sizeOf_spec, Prod.mk.sizeOf_spec] at smaller ⊢
      omega
  | data member =>
      have smaller := List.sizeOf_lt_of_mem member
      simp only [Value.repository.sizeOf_spec, Prod.mk.sizeOf_spec] at smaller ⊢
      omega

/-- No value contains itself. -/
theorem not_contains_self
    (value : Value) :
    ¬ value.Contains value := by
  rintro ⟨inData, slot, stands⟩
  have smaller {inData : Bool} {slot : Slot} {part : Value}
      (stands : value.Stands inData slot part) :
      sizeOf part < sizeOf value := by
    induction stands with
    | directly holds =>
        exact holds.sizeOf_lt
    | deeper _ holds inductionHypothesis =>
        exact Nat.lt_trans holds.sizeOf_lt inductionHypothesis
  exact Nat.lt_irrefl _ (smaller stands)

/-! ## Well-formed values -/

namespace WellFormed

variable {inData : Bool} {slot : Slot} {value : Value}

/-- What may stand under a key may stand anywhere. -/
theorem atSlot
    {key : Text}
    (wellFormed : WellFormed inData (.underKey key) value)
    (slot : Slot) :
    WellFormed inData slot value := by
  cases wellFormed with
  | boolean flag =>
      exact .boolean flag
  | text filled =>
      exact .text filled
  | list ofItems =>
      exact .list ofItems
  | mapping keyed ofValues =>
      exact .mapping keyed ofValues

/-- What may stand anywhere may stand in the data of a repository. -/
theorem asData
    (wellFormed : WellFormed inData slot value) :
    WellFormed true slot value := by
  induction wellFormed with
  | boolean flag =>
      exact .boolean flag
  | text _ =>
      exact .text fun _ => rfl
  | list _ inductionHypothesis =>
      exact .list inductionHypothesis
  | mapping keyed _ inductionHypothesis =>
      exact .mapping keyed inductionHypothesis
  | repository named denotes keyed ofValues _ =>
      exact .repository named denotes keyed ofValues

/-- What stands in a well-formed value is well-formed, and its key is not empty. -/
theorem holds
    {inDataHere : Bool} {slotHere : Slot} {part : Value}
    (wellFormed : WellFormed inData slot value)
    (holds : value.Holds inDataHere slotHere part) :
    slotHere ≠ .underKey [] ∧ WellFormed (inData || inDataHere) slotHere part := by
  have nonempty {key : Text} (notEmpty : key ≠ []) : Slot.underKey key ≠ .underKey [] := by
    simpa using notEmpty
  cases holds with
  | item member =>
      cases wellFormed with
      | list ofItems =>
          rw [Bool.or_false]
          exact ⟨nofun, ofItems _ member⟩
  | unordered member =>
      cases wellFormed
  | entry member =>
      cases wellFormed with
      | mapping keyed ofValues =>
          rw [Bool.or_false]
          exact ⟨nonempty (keyed _ member), ofValues _ member⟩
  | data member =>
      cases wellFormed with
      | repository named denotes keyed ofValues =>
          rw [Bool.or_true]
          exact ⟨nonempty (keyed _ member), ofValues _ member⟩

/-- At every depth what stands in a well-formed value is well-formed, and no key is empty. -/
theorem stands
    {inDataHere : Bool} {slotHere : Slot} {part : Value}
    (wellFormed : WellFormed inData slot value)
    (stands : value.Stands inDataHere slotHere part) :
    slotHere ≠ .underKey [] ∧ WellFormed (inData || inDataHere) slotHere part := by
  induction stands with
  | directly holds =>
      exact wellFormed.holds holds
  | deeper _ holds inductionHypothesis =>
      rw [← Bool.or_assoc]
      exact inductionHypothesis.2.holds holds

end WellFormed

/-- The name of a directive is empty for a pair of parentheses alone. -/
theorem eq_of_callName_eq_nil
    {key : Text}
    (named : key ≠ [])
    (unnamed : callName key = []) :
    key = ['(', ')'] := by
  unfold callName at unnamed
  split at unnamed
  · next isCall =>
      obtain ⟨word, rfl⟩ := List.isSuffixOf_iff_suffix.mp isCall
      have noWord : word = [] := by simpa using unnamed
      rw [noWord]
      rfl
  · exact (named unnamed).elim

/-- The kind of a repository is empty for a directive that is a pair of parentheses alone. -/
theorem eq_of_directiveRepository_unnamed
    {key : Text} {directive : Value} {data : Mapping}
    (named : key ≠ [])
    (denotes : directiveRepository key directive = .repository [] data) :
    key = ['(', ')'] := by
  apply eq_of_callName_eq_nil named
  unfold directiveRepository at denotes
  split at denotes
  · cases denotes
  · split at denotes
    · exact (Value.repository.inj denotes).1
    · exact (Value.repository.inj denotes).1

/-- A well-formed value may stand where it stands. -/
theorem WellFormed.fitsAt
    {inData : Bool} {slot : Slot} {value : Value}
    (wellFormed : WellFormed inData slot value)
    (keyed : slot ≠ .underKey []) :
    value.FitsAt inData slot := by
  refine ⟨keyed, ?_, ?_, ?_, not_contains_self value⟩
  · cases wellFormed <;> exact ⟨nofun, nofun, nofun⟩
  · rintro rfl
    cases wellFormed with
    | text filled =>
        exact filled rfl
  · rintro kind data rfl
    cases wellFormed with
    | @repository _ key _ directive _ named denotes _ _ =>
        refine ⟨rfl, key, directive, named, denotes, ?_⟩
        rintro rfl
        exact eq_of_directiveRepository_unnamed named denotes

/-! ## JSON forms -/

/-- Items that can all be written are written as a list. -/
theorem exists_jsonItems
    (indent : Option Int) {items : List Value}
    (encodes : ∀ item ∈ items, ∀ level, ∃ encoded, item.toJsonAt indent level = .ok encoded)
    (level : Nat) :
    ∃ encoded, jsonItems indent level items = .ok encoded := by
  induction items with
  | nil =>
      exact ⟨[], by rw [jsonItems]⟩
  | cons item items inductionHypothesis =>
      obtain ⟨encodesItem, encodesItems⟩ := List.forall_mem_cons.mp encodes
      obtain ⟨first, ofItem⟩ := encodesItem level
      obtain ⟨others, ofItems⟩ := inductionHypothesis encodesItems
      exact ⟨first :: others, by rw [jsonItems, ofItem, ofItems]⟩

/-- Entries that can all be written are written as a mapping. -/
theorem exists_jsonMembers
    (indent : Option Int) {entries : Mapping}
    (encodes :
      ∀ entry ∈ entries, ∀ level, ∃ encoded, entry.2.toJsonAt indent level = .ok encoded)
    (level : Nat) :
    ∃ encoded, jsonMembers indent level entries = .ok encoded := by
  induction entries with
  | nil =>
      exact ⟨[], by rw [jsonMembers]⟩
  | cons entry entries inductionHypothesis =>
      obtain ⟨key, value⟩ := entry
      obtain ⟨encodesValue, encodesEntries⟩ := List.forall_mem_cons.mp encodes
      obtain ⟨first, ofValue⟩ := encodesValue level
      obtain ⟨others, ofEntries⟩ := inductionHypothesis encodesEntries
      exact ⟨Json.member key first :: others, by rw [jsonMembers, ofValue, ofEntries]⟩

/-- A well-formed value has a JSON form at every level. -/
theorem WellFormed.exists_toJsonAt
    {inData : Bool} {slot : Slot} {value : Value}
    (wellFormed : WellFormed inData slot value)
    (indent : Option Int) (level : Nat) :
    ∃ encoded, value.toJsonAt indent level = .ok encoded := by
  induction wellFormed generalizing level with
  | boolean flag =>
      exact ⟨_, by rw [toJsonAt]⟩
  | text _ =>
      exact ⟨_, by rw [toJsonAt]⟩
  | list _ inductionHypothesis =>
      obtain ⟨encoded, ofItems⟩ := exists_jsonItems indent inductionHypothesis (level + 1)
      exact ⟨_, by rw [toJsonAt, ofItems, Except.map]⟩
  | mapping _ _ inductionHypothesis =>
      obtain ⟨encoded, ofEntries⟩ := exists_jsonMembers indent inductionHypothesis (level + 1)
      exact ⟨_, by rw [toJsonAt, ofEntries, Except.map]⟩
  | repository _ _ _ _ inductionHypothesis =>
      obtain ⟨encoded, ofData⟩ := exists_jsonMembers indent inductionHypothesis (level + 2)
      exact ⟨_, by rw [toJsonAt, ofData, Except.map]⟩

/-- Whatever the indentation, a well-formed value is not refused for its kind. -/
theorem WellFormed.toJson_ne_unordered
    {inData : Bool} {slot : Slot} {value : Value}
    (wellFormed : WellFormed inData slot value)
    (indent : Option Int) :
    value.toJson indent ≠ .error .unordered := by
  have notUnordered {width : Int} {error : JsonError}
      (wrong : indentError? width = some error) :
      error ≠ .unordered := by
    unfold indentError? at wrong
    split at wrong
    · cases wrong
      exact nofun
    · split at wrong
      · cases wrong
        exact nofun
      · cases wrong
  obtain ⟨encoded, ofValue⟩ := wellFormed.exists_toJsonAt indent 0
  unfold toJson
  split
  · exact nofun
  · next wrong =>
      obtain ⟨width, _, wrongWidth⟩ := Option.bind_eq_some_iff.mp wrong
      intro refused
      exact notUnordered wrongWidth (Except.error.inj refused)
  · rw [ofValue]
    exact nofun

end Value

/-! ## Well-formed mappings -/

namespace Mapping

/-- Whether no key of a mapping is empty, and every value may stand under its key. -/
structure WellFormed (inData : Bool) (entries : Mapping) : Prop where
  keyed : ∀ entry ∈ entries, entry.1 ≠ []
  ofValues : ∀ entry ∈ entries, Value.WellFormed inData (.underKey entry.1) entry.2

/-- A mapping without entries is well-formed. -/
theorem wellFormed_nil
    (inData : Bool) :
    WellFormed inData [] :=
  ⟨nofun, nofun⟩

namespace WellFormed

variable {inData : Bool} {entries : Mapping}

/-- A well-formed mapping may stand at any slot. -/
theorem asValue
    (wellFormed : WellFormed inData entries)
    (slot : Slot) :
    Value.WellFormed inData slot (.mapping entries) :=
  .mapping wellFormed.keyed wellFormed.ofValues

/-- A mapping that stands well-formed at a slot is well-formed. -/
theorem of_value
    {slot : Slot}
    (wellFormed : Value.WellFormed inData slot (.mapping entries)) :
    WellFormed inData entries := by
  cases wellFormed with
  | mapping keyed ofValues =>
      exact ⟨keyed, ofValues⟩

/-- A mapping that is well-formed in a script is well-formed in the data of a repository. -/
theorem asData
    (wellFormed : WellFormed inData entries) :
    WellFormed true entries :=
  of_value (wellFormed.asValue .inList).asData

/-- What is found under a key of a well-formed mapping is well-formed there. -/
theorem ofValue
    {key : Text} {value : Value}
    (wellFormed : WellFormed inData entries)
    (isThere : entries.get? key = some value) :
    Value.WellFormed inData (.underKey key) value :=
  wellFormed.ofValues _ (mem_of_get? isThere)

/-- A well-formed value may be put under a key of a well-formed mapping. -/
theorem put
    {key : Text} {value : Value}
    (wellFormed : WellFormed inData entries)
    (keyed : key ≠ [])
    (ofValue : Value.WellFormed inData (.underKey key) value) :
    WellFormed inData (Mapping.put entries key value) := by
  constructor
  · intro entry member
    rcases mem_put member with isThere | rfl
    · exact wellFormed.keyed entry isThere
    · exact keyed
  · intro entry member
    rcases mem_put member with isThere | rfl
    · exact wellFormed.ofValues entry isThere
    · exact ofValue

/-- Values that are collected under a key may stand in their list. -/
theorem add
    {key : Text} {value : Value}
    (wellFormed : WellFormed inData entries)
    (ofValue : Value.WellFormed inData (.underKey key) value) :
    WellFormed inData (Mapping.add entries key value) := by
  unfold Mapping.add
  split
  · exact wellFormed
  · next isKeyed =>
      have keyed : key ≠ [] := by simpa using isKeyed
      apply wellFormed.put keyed
      have inList := ofValue.atSlot .inList
      cases isThere : entries.get? key with
      | none =>
          exact ofValue
      | some present =>
          have ofPresent := wellFormed.ofValue isThere
          have both :
              Value.WellFormed inData (.underKey key) (.list [present, value]) :=
            .list (by simpa using ⟨ofPresent.atSlot .inList, inList⟩)
          cases present with
          | list items =>
              cases ofPresent with
              | list ofItems =>
                  exact .list (by simpa [or_imp, forall_and] using ⟨ofItems, inList⟩)
          | _ =>
              exact both

/-- What a merge leaves may stand where its parts may. -/
theorem merge
    {incoming : Mapping}
    (wellFormed : WellFormed inData entries)
    (ofIncoming : WellFormed inData incoming) :
    WellFormed inData (Mapping.merge entries incoming) := by
  refine
    Mapping.merge.induct
      (fun present value =>
        ∀ key,
          (∀ other, present = some other → Value.WellFormed inData (.underKey key) other) →
            Value.WellFormed inData (.underKey key) value →
              Value.WellFormed inData (.underKey key) (mergeValue present value))
      (fun entries incoming =>
        WellFormed inData entries → WellFormed inData incoming →
          WellFormed inData (Mapping.merge entries incoming))
      ?_ ?_ ?_ ?_ entries incoming wellFormed ofIncoming
  · intro current incoming inductionHypothesis key ofPresent ofValue
    rw [mergeValue.eq_1]
    exact (inductionHypothesis (of_value (ofPresent _ rfl)) (of_value ofValue)).asValue _
  · intro present value noMappings key _ ofValue
    rw [mergeValue.eq_2 present value noMappings]
    exact ofValue
  · intro current ofCurrent _
    rw [Mapping.merge]
    exact ofCurrent
  · intro current key value incoming valueHypothesis inductionHypothesis ofCurrent ofEntries
    obtain ⟨keyed, later⟩ := List.forall_mem_cons.mp ofEntries.keyed
    obtain ⟨ofValue, ofLater⟩ := List.forall_mem_cons.mp ofEntries.ofValues
    have merged := valueHypothesis key (fun _ isThere => ofCurrent.ofValue isThere) ofValue
    rw [Mapping.merge]
    exact inductionHypothesis (ofCurrent.put keyed merged) ⟨later, ofLater⟩

/-- A mapping that is merged under a key may stand there. -/
theorem put_mergeValue
    {key : Text} {incoming : Mapping}
    (wellFormed : WellFormed inData entries)
    (keyed : key ≠ [])
    (ofIncoming : WellFormed inData incoming) :
    WellFormed inData
      (Mapping.put entries key (mergeValue (entries.get? key) (.mapping incoming))) := by
  apply wellFormed.put keyed
  by_cases isMapping : ∃ current, entries.get? key = some (.mapping current)
  · obtain ⟨current, isThere⟩ := isMapping
    rw [isThere, mergeValue.eq_1]
    exact ((of_value (wellFormed.ofValue isThere)).merge ofIncoming).asValue _
  · have noMapping (current : Mapping) (incomingHere : Mapping)
        (isThere : entries.get? key = some (.mapping current)) :
        Value.mapping incoming = .mapping incomingHere → False :=
      fun _ => isMapping ⟨current, isThere⟩
    rw [mergeValue.eq_2 _ _ noMapping]
    exact ofIncoming.asValue _

end WellFormed

end Mapping

/-! ## Well-formed repositories -/

/-- A well-formed value under one key is a well-formed mapping. -/
theorem Mapping.wellFormed_single
    {key : Text} {value : Value}
    (keyed : key ≠ [])
    (ofValue : Value.WellFormed true (.underKey key) value) :
    Mapping.WellFormed true [(key, value)] := by
  constructor
  · simpa using keyed
  · simpa using ofValue

/-- A directive denotes a repository with well-formed data. -/
theorem exists_directiveRepository
    {inData : Bool} (key : Text) {value : Value}
    (ofValue : Value.WellFormed inData (.underKey key) value) :
    ∃ kind data,
      directiveRepository key value = .repository kind data ∧ Mapping.WellFormed true data := by
  unfold directiveRepository
  split
  · exact ⟨_, _, rfl, Mapping.wellFormed_single (by decide) (.text fun _ => rfl)⟩
  · split
    · exact ⟨_, _, rfl, (Mapping.WellFormed.of_value ofValue).asData⟩
    · exact ⟨_, _, rfl, Mapping.wellFormed_single (by decide) (ofValue.asData.atSlot _)⟩

/-- Every repository that a body denotes may stand in a list. -/
theorem Mapping.WellFormed.ofRepositories
    {inData : Bool} {entries : Mapping}
    (wellFormed : entries.WellFormed inData)
    (inDataAround : Bool) :
    ∀ item ∈ repositoriesOf entries, Value.WellFormed inDataAround .inList item := by
  intro item member
  obtain ⟨⟨key, value⟩, isEntry, rfl⟩ := List.mem_map.mp member
  have keyed : key ≠ [] := wellFormed.keyed _ isEntry
  obtain ⟨kind, data, denotes, ofData⟩ :=
    exists_directiveRepository key (wellFormed.ofValues _ isEntry)
  dsimp only
  rw [denotes]
  exact .repository keyed denotes ofData.keyed ofData.ofValues

/-! ## What is recorded -/

/-- A literal without its quotes is not empty, and neither is any other text that is left as it
is. -/
theorem trimQuotes_ne_nil
    {text : Text}
    (notEmpty : text ≠ []) :
    trimQuotes text ≠ [] := by
  unfold trimQuotes
  split
  · exact (notEmpty rfl).elim
  · split
    · split
      · split
        · exact List.cons_ne_nil _ _
        · exact notEmpty
      · exact notEmpty
    · exact notEmpty

/-- A scalar may stand outside the data of repositories, if its text is not empty. -/
theorem Value.wellFormed_ofScalar
    {inData : Bool} {text : Text}
    (filled : text = [] → inData = true)
    (slot : Slot) :
    Value.WellFormed inData slot (.ofScalar text) := by
  unfold Value.ofScalar
  split
  · exact .boolean true
  · split
    · exact .boolean false
    · exact .text filled

/-- The items of an array literal are not empty. -/
theorem ne_nil_of_mem_readArray
    {text item : Text}
    (member : item ∈ (readArray text).1) :
    item ≠ [] := by
  have kept := (List.mem_filter.mp member).2
  simpa using kept

/-- An array literal may stand anywhere. -/
theorem Value.wellFormed_readArray
    (inData : Bool) (slot : Slot) (text : Text) :
    Value.WellFormed inData slot (.list ((readArray text).1.map Value.text)) := by
  refine .list ?_
  intro item member
  obtain ⟨content, isItem, rfl⟩ := List.mem_map.mp member
  exact .text fun isEmpty => (ne_nil_of_mem_readArray isItem isEmpty).elim

end GradleScript
