import GradleScript.Proofs.Value.Merged

namespace GradleScript.Mapping

/-!
# Merges one after the other

A merge replaces a value under a key that comes again, unless both values are mappings.  Where every
mapping stays a mapping, at every depth, it makes no difference whether what comes is merged as a
whole or one thing after the other, and what the merge replaces is what comes again at the same
path.
-/

/-! ## Keys that are distinct at every depth -/

mutual

/-- Whether the keys of a value, if it is a mapping, are distinct at every depth. -/
def ValueWellKeyed : Value → Prop
  | .mapping entries => WellKeyed entries
  | _ => True

/-- Whether the keys of a mapping are distinct, and those of every mapping in it. -/
def WellKeyed : List (Text × Value) → Prop
  | [] => True
  | (key, value) :: entries =>
      key ∉ entries.map Prod.fst ∧ ValueWellKeyed value ∧ WellKeyed entries

end

/-- A mapping is well keyed where its keys are distinct and its values are well keyed. -/
theorem wellKeyed_iff
    {entries : Mapping} :
    WellKeyed entries ↔
      (entries.map Prod.fst).Nodup ∧ ∀ entry ∈ entries, ValueWellKeyed entry.2 := by
  induction entries with
  | nil =>
      simp [WellKeyed]
  | cons entry entries inductionHypothesis =>
      obtain ⟨key, value⟩ := entry
      rw [WellKeyed, inductionHypothesis, List.map_cons, List.nodup_cons, List.forall_mem_cons]
      constructor
      · rintro ⟨isNew, first, distinct, later⟩
        exact ⟨⟨isNew, distinct⟩, first, later⟩
      · rintro ⟨⟨isNew, distinct⟩, first, later⟩
        exact ⟨isNew, first, distinct, later⟩

/-- The keys of a well keyed mapping are distinct. -/
theorem WellKeyed.distinct
    {entries : Mapping}
    (wellKeyed : WellKeyed entries) :
    (entries.map Prod.fst).Nodup :=
  (wellKeyed_iff.mp wellKeyed).1

/-- A value that is no mapping is well keyed, for it has no keys. -/
theorem valueWellKeyed_of_ne_mapping
    {value : Value}
    (noMapping : ∀ entries, value ≠ .mapping entries) :
    ValueWellKeyed value := by
  cases value with
  | mapping entries =>
      exact (noMapping entries rfl).elim
  | _ =>
      exact trivial

/-- A value that is found under a key is an entry. -/
theorem mem_of_get?
    {entries : Mapping} {key : Text} {value : Value}
    (isThere : entries.get? key = some value) :
    (key, value) ∈ entries := by
  induction entries with
  | nil =>
      cases isThere
  | cons entry entries inductionHypothesis =>
      obtain ⟨present, current⟩ := entry
      rw [get?_cons] at isThere
      by_cases isKey : present = key
      · rw [if_pos isKey] at isThere
        cases isThere
        exact isKey ▸ List.mem_cons_self
      · rw [if_neg isKey] at isThere
        exact List.mem_cons_of_mem _ (inductionHypothesis isThere)

/-- What stands in a mapping that has been written stood there before, or has been written. -/
theorem mem_put
    {entries : Mapping} {key : Text} {value : Value} {entry : Text × Value}
    (member : entry ∈ entries.put key value) :
    entry ∈ entries ∨ entry = (key, value) := by
  induction entries with
  | nil =>
      exact .inr (List.mem_singleton.mp member)
  | cons first entries inductionHypothesis =>
      obtain ⟨present, current⟩ := first
      by_cases isKey : present = key
      · simp only [put, isKey, beq_self_eq_true, if_true, List.mem_cons] at member
        rcases member with isEntry | isLater
        · exact .inr isEntry
        · exact .inl (List.mem_cons_of_mem _ isLater)
      · simp only [put, beq_iff_eq, isKey, if_false, List.mem_cons] at member
        rcases member with rfl | isLater
        · exact .inl List.mem_cons_self
        · exact (inductionHypothesis isLater).imp_left (List.mem_cons_of_mem _)

namespace WellKeyed

/-- What is found in a well keyed mapping is well keyed. -/
theorem value
    {entries : Mapping} {key : Text} {value : Value}
    (wellKeyed : WellKeyed entries)
    (isThere : entries.get? key = some value) :
    ValueWellKeyed value :=
  (wellKeyed_iff.mp wellKeyed).2 _ (mem_of_get? isThere)

/-- A well keyed value may be put in a well keyed mapping. -/
theorem put
    {entries : Mapping} {value : Value}
    (wellKeyed : WellKeyed entries)
    (key : Text)
    (ofValue : ValueWellKeyed value) :
    WellKeyed (Mapping.put entries key value) := by
  obtain ⟨distinct, values⟩ := wellKeyed_iff.mp wellKeyed
  refine wellKeyed_iff.mpr ⟨nodup_keys_put distinct key value, ?_⟩
  intro entry member
  rcases mem_put member with isThere | rfl
  · exact values entry isThere
  · exact ofValue

end WellKeyed

/-- What a merge leaves under a key has keys that are distinct, and so has the merged mapping. -/
theorem WellKeyed.merge
    {current incoming : Mapping}
    (wellKeyed : WellKeyed current)
    (incomingWellKeyed : WellKeyed incoming) :
    WellKeyed (Mapping.merge current incoming) := by
  refine
    Mapping.merge.induct
      (fun present value =>
        (∀ other, present = some other → ValueWellKeyed other) → ValueWellKeyed value →
          ValueWellKeyed (mergeValue present value))
      (fun current incoming =>
        WellKeyed current → WellKeyed incoming → WellKeyed (Mapping.merge current incoming))
      ?_ ?_ ?_ ?_ current incoming wellKeyed incomingWellKeyed
  · intro current incoming inductionHypothesis ofPresent ofValue
    rw [mergeValue.eq_1, ValueWellKeyed]
    exact inductionHypothesis (ofPresent _ rfl) ofValue
  · intro present value noMappings _ ofValue
    rw [mergeValue.eq_2 present value noMappings]
    exact ofValue
  · intro current ofCurrent _
    rw [Mapping.merge]
    exact ofCurrent
  · intro current key value incoming valueHypothesis inductionHypothesis ofCurrent ofIncoming
    obtain ⟨_, ofValue, later⟩ := ofIncoming
    rw [Mapping.merge]
    exact
      inductionHypothesis
        (ofCurrent.put key (valueHypothesis (fun _ isThere => ofCurrent.value isThere) ofValue))
        later

/-- Merging well keyed values gives a well keyed value. -/
theorem ValueWellKeyed.mergeValue
    {present : Option Value} {value : Value}
    (ofPresent : ∀ other, present = some other → ValueWellKeyed other)
    (ofValue : ValueWellKeyed value) :
    ValueWellKeyed (Mapping.mergeValue present value) := by
  by_cases areMappings :
      ∃ current incoming, present = some (.mapping current) ∧ value = .mapping incoming
  · obtain ⟨current, incoming, rfl, rfl⟩ := areMappings
    have ofCurrent : WellKeyed current := ofPresent _ rfl
    rw [mergeValue.eq_1, ValueWellKeyed]
    exact ofCurrent.merge ofValue
  · rw [mergeValue.eq_2 present value fun current incoming isPresent isValue =>
      areMappings ⟨current, incoming, isPresent, isValue⟩]
    exact ofValue

/-- A value that is merged under a key keeps the keys distinct. -/
theorem WellKeyed.put_mergeValue
    {entries : Mapping} {value : Value}
    (wellKeyed : WellKeyed entries)
    (key : Text)
    (ofValue : ValueWellKeyed value) :
    WellKeyed (Mapping.put entries key (Mapping.mergeValue (entries.get? key) value)) :=
  wellKeyed.put key (.mergeValue (fun _ isThere => wellKeyed.value isThere) ofValue)

/-! ## Merging into a mapping that is written -/

/-- A key that is there and does not come can be written before a merge as well as after it. -/
theorem put_merge_of_new
    {current incoming : Mapping} {key : Text}
    (isThere : key ∈ current.map Prod.fst)
    (isNew : key ∉ incoming.map Prod.fst)
    (value : Value) :
    Mapping.put (merge current incoming) key value = merge (current.put key value) incoming := by
  induction incoming generalizing current with
  | nil =>
      rw [merge, merge]
  | cons entry incoming inductionHypothesis =>
      obtain ⟨other, coming⟩ := entry
      rw [List.map_cons, List.mem_cons, not_or] at isNew
      have stillThere : key ∈ (current.put other (mergeValue (current.get? other) coming)).map
          Prod.fst := by
        rw [keys_put]
        split
        · exact isThere
        · exact List.mem_append_left _ isThere
      rw [merge, merge, inductionHypothesis stillThere isNew.2, get?_put, if_neg isNew.1,
        put_comm_of_mem isThere (Ne.symm isNew.1)]

/-- To merge a mapping in which a key is written is to write the key into the merged mapping. -/
theorem merge_put
    {incoming : Mapping}
    (distinct : (incoming.map Prod.fst).Nodup)
    (current : Mapping) (key : Text) (value : Value) :
    merge current (incoming.put key value) =
      Mapping.put (merge current incoming) key (mergeValue (current.get? key) value) := by
  induction incoming generalizing current with
  | nil =>
      simp [Mapping.put, merge]
  | cons entry incoming inductionHypothesis =>
      obtain ⟨present, coming⟩ := entry
      rw [List.map_cons, List.nodup_cons] at distinct
      by_cases isKey : present = key
      · subst isKey
        have isThere : present ∈
            (current.put present (mergeValue (current.get? present) coming)).map Prod.fst := by
          rw [keys_put]
          split
          · next isThere =>
              exact isThere
          · exact List.mem_append_right _ (List.mem_singleton_self present)
        have written : Mapping.put ((present, coming) :: incoming) present value =
            (present, value) :: incoming := by
          simp [Mapping.put]
        rw [written, merge, merge, put_merge_of_new isThere distinct.1, put_put]
      · have written : Mapping.put ((present, coming) :: incoming) key value =
            (present, coming) :: Mapping.put incoming key value := by
          simp [Mapping.put, isKey]
        rw [written, merge, merge, inductionHypothesis distinct.2, get?_put, if_neg isKey]

/-! ## Mappings that stay mappings -/

mutual

/-- Whether a value that comes for another one leaves a mapping a mapping, at every depth. -/
def keepsMapping : Option Value → Value → Bool
  | some (.mapping current), .mapping incoming => keepsMappings current incoming
  | some (.mapping _), _ => false
  | _, _ => true

/-- Whether a mapping that comes for another one leaves every mapping in that one a mapping. -/
def keepsMappings : List (Text × Value) → List (Text × Value) → Bool
  | _, [] =>
      true
  | current, (key, value) :: incoming =>
      keepsMapping (get? current key) value && keepsMappings current incoming

end

/-- A mapping stays a mapping exactly where a mapping comes for it that keeps the mappings in it. -/
theorem keepsMapping_mapping_iff
    {current : Mapping} {value : Value} :
    keepsMapping (some (.mapping current)) value = true ↔
      ∃ incoming, value = .mapping incoming ∧ keepsMappings current incoming = true := by
  constructor
  · intro keeps
    cases value with
    | mapping incoming =>
        rw [keepsMapping] at keeps
        exact ⟨incoming, rfl, keeps⟩
    | _ =>
        simp [keepsMapping] at keeps
  · rintro ⟨incoming, rfl, keeps⟩
    rw [keepsMapping]
    exact keeps

/-- A merge keeps the mappings of a mapping exactly where it keeps the one under each key. -/
theorem keepsMappings_iff
    {current incoming : Mapping}
    (distinct : (incoming.map Prod.fst).Nodup) :
    keepsMappings current incoming = true ↔
      ∀ key value, incoming.get? key = some value →
        keepsMapping (current.get? key) value = true := by
  induction incoming with
  | nil =>
      simp [keepsMappings, get?]
  | cons entry incoming inductionHypothesis =>
      obtain ⟨first, coming⟩ := entry
      rw [List.map_cons, List.nodup_cons] at distinct
      rw [keepsMappings, Bool.and_eq_true, inductionHypothesis distinct.2]
      constructor
      · rintro ⟨firstKeeps, laterKeeps⟩ key value isComing
        rw [get?_cons] at isComing
        by_cases isFirst : first = key
        · rw [if_pos isFirst] at isComing
          cases isComing
          exact isFirst ▸ firstKeeps
        · rw [if_neg isFirst] at isComing
          exact laterKeeps key value isComing
      · intro allKeep
        constructor
        · exact allKeep first coming (by rw [get?_cons, if_pos rfl])
        · intro key value isComing
          have notFirst : first ≠ key := by
            rintro rfl
            rw [get?_eq_none_iff.mpr distinct.1] at isComing
            cases isComing
          exact allKeep key value (by rw [get?_cons, if_neg notFirst, isComing])

/-- Whether a mapping goes together with an earlier one: it has mappings under every key that both
have, and leaves every mapping in the earlier one a mapping. -/
def joins (earlier entries : Mapping) : Bool :=
  keepsMappings earlier entries &&
    entries.all fun entry =>
      !earlier.contains entry.1 ||
        match entry.2 with
        | .mapping _ => true
        | _ => false

/-- A mapping that goes together with an earlier one keeps its mappings. -/
theorem joins.keepsMappings
    {earlier entries : Mapping}
    (joined : joins earlier entries = true) :
    keepsMappings earlier entries = true := by
  unfold joins at joined
  exact (Bool.and_eq_true_iff.mp joined).1

/-- Under a key of the earlier mapping, what goes together with it has no value but a mapping. -/
theorem joins.get?_eq_none
    {earlier entries : Mapping} {key : Text} {value : Value}
    (joined : joins earlier entries = true)
    (isThere : entries.get? key = some value)
    (noMapping : ∀ entries, value ≠ .mapping entries) :
    earlier.get? key = none := by
  unfold joins at joined
  have shared := List.all_eq_true.mp (Bool.and_eq_true_iff.mp joined).2 _ (mem_of_get? isThere)
  cases value with
  | mapping nested =>
      exact (noMapping nested rfl).elim
  | _ =>
      simpa [contains] using shared

/-! ## Merges in turn -/

/-- What stands under a key that two mappings have been merged for. -/
def merged (present coming : Option Value) : Option Value :=
  match coming with
  | none => present
  | some value => some (mergeValue present value)

/-- A value that comes for nothing is stored as it is. -/
theorem mergeValue_none (value : Value) :
    mergeValue none value = value :=
  mergeValue.eq_2 none value fun _ _ isThere _ => Option.some_ne_none _ isThere.symm

/-- What comes for nothing stays under its key. -/
theorem merged_none (coming : Option Value) :
    merged none coming = coming := by
  cases coming with
  | none =>
      rfl
  | some value =>
      exact congrArg some (mergeValue_none value)

/-- A merge acts on each key alone. -/
theorem get?_merge_eq_merged
    {incoming : Mapping}
    (distinct : (incoming.map Prod.fst).Nodup)
    (current : Mapping) (key : Text) :
    get? (merge current incoming) key = merged (current.get? key) (incoming.get? key) := by
  rw [get?_merge distinct]
  rfl

/-- Where one value has been merged after another one, and all mappings have stayed mappings, the
two can as well be merged before. -/
def MergesInTurn (second : Option Value) (third : Value) : Prop :=
  ∀ first : Option Value,
    (∀ coming, second = some coming → keepsMapping first coming = true) →
      mergeValue (merged first second) third = mergeValue first (mergeValue second third)

/-- Values that are not both mappings are merged in turn, since the later one takes the place of the
earlier one. -/
theorem mergesInTurn_of_ne_mappings
    {second : Option Value} {third : Value}
    (noMappings :
      ∀ current incoming, second = some (.mapping current) → third = .mapping incoming → False) :
    MergesInTurn second third := by
  intro first keeps
  rw [mergeValue.eq_2 second third noMappings]
  cases second with
  | none =>
      rfl
  | some coming =>
      rw [merged]
      by_cases isMapping : ∃ incoming, third = .mapping incoming
      · obtain ⟨incoming, rfl⟩ := isMapping
        have noneComing (current : Mapping) : coming ≠ .mapping current := fun isCurrent =>
          noMappings current incoming (congrArg some isCurrent) rfl
        -- A mapping would have stayed one, so what is there is none.
        have noneThere (current : Mapping) : first ≠ some (.mapping current) := by
          rintro rfl
          obtain ⟨nested, isNested, _⟩ := keepsMapping_mapping_iff.mp (keeps coming rfl)
          exact noneComing nested isNested
        have replaced : mergeValue first coming = coming :=
          mergeValue.eq_2 first coming fun current _ isThere _ => noneThere current isThere
        rw [replaced,
          mergeValue.eq_2 (some coming) _ fun current _ isComing _ =>
            noneComing current (Option.some.inj isComing),
          mergeValue.eq_2 first _ fun current _ isThere _ => noneThere current isThere]
      · have noMapping (incoming : Mapping) : third ≠ .mapping incoming := fun isThird =>
          isMapping ⟨incoming, isThird⟩
        rw [mergeValue.eq_2 _ third fun _ incoming _ isThird => noMapping incoming isThird,
          mergeValue.eq_2 first third fun _ incoming _ isThird => noMapping incoming isThird]

/-- Mappings are merged in turn where their merges are associative. -/
theorem mergesInTurn_of_mappings
    {second third : Mapping}
    (inTurn :
      ∀ first, keepsMappings first second = true →
        merge (merge first second) third = merge first (merge second third)) :
    MergesInTurn (some (.mapping second)) (.mapping third) := by
  intro first keeps
  by_cases isMapping : ∃ current, first = some (.mapping current)
  · obtain ⟨current, rfl⟩ := isMapping
    have keepsBelow := keeps _ rfl
    rw [keepsMapping] at keepsBelow
    simp only [merged, mergeValue.eq_1, inTurn current keepsBelow]
  · have noMapping (value : Value) : mergeValue first value = value :=
      mergeValue.eq_2 first value fun current _ isThere _ => isMapping ⟨current, isThere⟩
    rw [merged, noMapping, noMapping]

/-- Two mappings that come one after the other can be merged first, where all mappings stay
mappings. -/
theorem merge_assoc
    {first second third : Mapping}
    (wellKeyed : WellKeyed second)
    (thirdWellKeyed : WellKeyed third)
    (keeps : keepsMappings first second = true) :
    merge (merge first second) third = merge first (merge second third) := by
  -- Only the keys that are still to come must be kept, since those before have been merged.
  refine
    Mapping.merge.induct
      (fun second third =>
        (∀ value, second = some value → ValueWellKeyed value) → ValueWellKeyed third →
          MergesInTurn second third)
      (fun second third =>
        ∀ first, WellKeyed second → WellKeyed third →
          (∀ key ∈ third.map Prod.fst, ∀ coming, get? second key = some coming →
            keepsMapping (get? first key) coming = true) →
            merge (merge first second) third = merge first (merge second third))
      ?_ ?_ ?_ ?_ second third first wellKeyed thirdWellKeyed
      fun key _ => (keepsMappings_iff wellKeyed.distinct).mp keeps key
  · intro second third inductionHypothesis ofSecond ofThird
    have wellKeyed : WellKeyed second := ofSecond _ rfl
    exact mergesInTurn_of_mappings fun first keeps =>
      inductionHypothesis first wellKeyed ofThird
        fun key _ => (keepsMappings_iff wellKeyed.distinct).mp keeps key
  · intro second third noMappings _ _
    exact mergesInTurn_of_ne_mappings noMappings
  · intro second first _ _ _
    rw [merge, merge]
  · intro second key value third valueHypothesis inductionHypothesis first ofSecond ofThird keeps
    obtain ⟨isNew, ofValue, later⟩ := ofThird
    have atKey :
        mergeValue (merged (get? first key) (get? second key)) value =
          mergeValue (get? first key) (mergeValue (get? second key) value) :=
      valueHypothesis (fun _ isThere => ofSecond.value isThere) ofValue (get? first key)
        (keeps key List.mem_cons_self)
    rw [merge, merge, get?_merge_eq_merged ofSecond.distinct, atKey, ← merge_put ofSecond.distinct]
    refine inductionHypothesis first (ofSecond.put_mergeValue key ofValue) later ?_
    intro other isLater coming isComing
    have otherKey : key ≠ other := fun isKey => isNew (isKey ▸ isLater)
    rw [get?_put, if_neg otherKey] at isComing
    exact keeps other (List.mem_cons_of_mem key isLater) coming isComing

/-- Well keyed values are merged in turn, at every depth. -/
theorem mergesInTurn_of_wellKeyed
    {second : Option Value} {third : Value}
    (wellKeyed : ∀ value, second = some value → ValueWellKeyed value)
    (thirdWellKeyed : ValueWellKeyed third) :
    MergesInTurn second third := by
  by_cases areMappings :
      ∃ current incoming, second = some (.mapping current) ∧ third = .mapping incoming
  · obtain ⟨current, incoming, rfl, rfl⟩ := areMappings
    exact mergesInTurn_of_mappings fun _ => merge_assoc (wellKeyed _ rfl) thirdWellKeyed
  · exact mergesInTurn_of_ne_mappings fun current incoming isSecond isThird =>
      areMappings ⟨current, incoming, isSecond, isThird⟩

/-! ## Writing after a merge -/

section Writing

variable {first second : Mapping} {key : Text}

/-- What is stored under a key after a merge is what a merge brings that comes after it. -/
theorem put_merge
    (distinct : (second.map Prod.fst).Nodup)
    (next : Option Value → Value)
    (inTurn :
      next (merged (first.get? key) (second.get? key)) =
        mergeValue (first.get? key) (next (second.get? key))) :
    Mapping.put (merge first second) key (next (get? (merge first second) key)) =
      merge first (second.put key (next (second.get? key))) := by
  rw [get?_merge_eq_merged distinct, inTurn, merge_put distinct]

/-- A value that is no mapping is stored after a merge as before it, where it does not come under a
key of the first mapping. -/
theorem put_merge_of_ne_mapping
    (distinct : (second.map Prod.fst).Nodup)
    (next : Option Value → Value)
    (noMapping : ∀ present entries, next present ≠ .mapping entries)
    (joined : joins first (second.put key (next (second.get? key))) = true) :
    Mapping.put (merge first second) key (next (get? (merge first second) key)) =
      merge first (second.put key (next (second.get? key))) := by
  have isWritten :
      (second.put key (next (second.get? key))).get? key = some (next (second.get? key)) := by
    rw [get?_put, if_pos rfl]
  have isNew : first.get? key = none := joins.get?_eq_none joined isWritten (noMapping _)
  apply put_merge distinct
  rw [isNew, merged_none, mergeValue_none]

/-- A mapping is merged under a key after a merge as before it, where all mappings stay mappings. -/
theorem put_merge_mapping
    {nested : Mapping}
    (wellKeyed : WellKeyed second)
    (nestedWellKeyed : WellKeyed nested)
    (keeps : keepsMappings first second = true) :
    Mapping.put (merge first second) key
        (mergeValue (get? (merge first second) key) (.mapping nested)) =
      merge first (second.put key (mergeValue (second.get? key) (.mapping nested))) := by
  have ofNested : ValueWellKeyed (.mapping nested) := nestedWellKeyed
  refine put_merge wellKeyed.distinct (fun present => mergeValue present (.mapping nested)) ?_
  exact
    mergesInTurn_of_wellKeyed (fun _ isThere => wellKeyed.value isThere) ofNested _
      ((keepsMappings_iff wellKeyed.distinct).mp keeps key)

end Writing

/-! ## Mappings under one key -/

/-- A well keyed mapping under one key is well keyed. -/
theorem wellKeyed_mapping
    {entries : Mapping}
    (key : Text)
    (wellKeyed : WellKeyed entries) :
    WellKeyed [(key, .mapping entries)] := by
  rw [WellKeyed, WellKeyed, ValueWellKeyed]
  exact ⟨List.not_mem_nil, wellKeyed, trivial⟩

/-- A mapping under one key is found under the key. -/
theorem get?_mapping
    (key : Text) (entries : Mapping) :
    get? [(key, .mapping entries)] key = some (.mapping entries) := by
  simp [get?]

/-- Mappings under one key are merged under the key. -/
theorem merge_mappings
    (key : Text) (first second : Mapping) :
    merge [(key, .mapping first)] [(key, .mapping second)] =
      [(key, .mapping (merge first second))] := by
  rw [merge, merge, get?_mapping, mergeValue.eq_1]
  simp [put]

/-- Under one key, mappings stay mappings where they do so on their own. -/
theorem keepsMappings_mappings
    (key : Text) (first second : Mapping) :
    keepsMappings [(key, .mapping first)] [(key, .mapping second)] =
      keepsMappings first second := by
  rw [keepsMappings, keepsMappings, get?_mapping, Bool.and_true]
  exact keepsMapping.eq_1 first second

/-! ## What a merge keeps -/

/-- The value at a path of keys, each of them in the mapping under the keys before it. -/
def valueAt? : Value → List Text → Option Value
  | value, [] =>
      some value
  | .mapping entries, key :: path =>
      (get? entries key).bind fun value => valueAt? value path
  | _, _ :: _ =>
      none

/-- No path leads into a value that is no mapping. -/
theorem valueAt?_cons_of_ne_mapping
    {value : Value}
    (noMapping : ∀ entries, value ≠ .mapping entries)
    (key : Text) (path : List Text) :
    valueAt? value (key :: path) = none := by
  cases value with
  | mapping entries =>
      exact (noMapping entries rfl).elim
  | _ =>
      rfl

/-- Where all mappings stay mappings, a merge leaves every other value where it is, unless one comes
in the same place, which then is there. -/
theorem valueAt?_merge
    {current incoming : Mapping} {path : List Text} {value : Value}
    (wellKeyed : WellKeyed incoming)
    (keeps : keepsMappings current incoming = true)
    (noMapping : ∀ entries, value ≠ .mapping entries)
    (isThere : valueAt? (.mapping current) path = some value) :
    valueAt? (.mapping (merge current incoming)) path =
      some ((valueAt? (.mapping incoming) path).getD value) := by
  induction path generalizing current incoming with
  | nil =>
      exact (noMapping current (Option.some.inj isThere).symm).elim
  | cons key path inductionHypothesis =>
      rw [valueAt?] at isThere
      obtain ⟨present, isPresent, isBelow⟩ := Option.bind_eq_some_iff.mp isThere
      rw [valueAt?, valueAt?, get?_merge_eq_merged wellKeyed.distinct, isPresent]
      cases isComing : incoming.get? key with
      | none =>
          exact isBelow
      | some coming =>
          have keepsBelow := (keepsMappings_iff wellKeyed.distinct).mp keeps key coming isComing
          rw [isPresent] at keepsBelow
          by_cases isMapping : ∃ below, present = .mapping below
          · obtain ⟨below, rfl⟩ := isMapping
            obtain ⟨comingBelow, rfl, keepsThere⟩ := keepsMapping_mapping_iff.mp keepsBelow
            simp only [merged, mergeValue.eq_1, Option.bind_some]
            exact inductionHypothesis (wellKeyed.value isComing) keepsThere isBelow
          · have notMapping (below : Mapping) : present ≠ .mapping below := fun isBelow =>
              isMapping ⟨below, isBelow⟩
            have replaced : mergeValue (some present) coming = coming :=
              mergeValue.eq_2 _ coming fun below _ isThere _ =>
                notMapping below (Option.some.inj isThere)
            rw [merged, replaced]
            cases path with
            | nil =>
                rfl
            | cons next path =>
                rw [valueAt?_cons_of_ne_mapping notMapping] at isBelow
                cases isBelow

end GradleScript.Mapping
