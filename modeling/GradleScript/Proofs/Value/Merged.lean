import GradleScript.Proofs.Value.Mappings

namespace GradleScript.Mapping

/-!
# Reading what has been merged

The keys of a mapping stay distinct however it is written, and what is read of a merged mapping
comes from the two that were merged.
-/

/-- Writing keeps the keys distinct. -/
theorem nodup_keys_put
    {entries : Mapping}
    (distinct : (entries.map Prod.fst).Nodup)
    (key : Text) (value : Value) :
    ((entries.put key value).map Prod.fst).Nodup := by
  rw [keys_put]
  split
  · exact distinct
  · next isNew =>
      exact distinct.append (List.nodup_singleton key) (List.disjoint_singleton.mpr isNew)

/-- A merge puts no key into a mapping twice. -/
theorem nodup_keys_merge
    {current : Mapping}
    (distinct : (current.map Prod.fst).Nodup)
    (incoming : Mapping) :
    ((merge current incoming).map Prod.fst).Nodup := by
  induction incoming generalizing current with
  | nil =>
      simpa [merge] using distinct
  | cons entry incoming inductionHypothesis =>
      rw [merge]
      exact inductionHypothesis (nodup_keys_put distinct _ _)

/-- The first entry is found under its key, and the later ones under the others. -/
theorem get?_cons
    (present : Text) (value : Value) (entries : Mapping) (key : Text) :
    get? ((present, value) :: entries) key =
      if present = key then some value else entries.get? key := by
  simp [get?]

/-- With distinct keys, an entry of a mapping is what is read under its key. -/
theorem get?_of_mem
    {entries : Mapping} {key : Text} {value : Value}
    (distinct : (entries.map Prod.fst).Nodup)
    (member : (key, value) ∈ entries) :
    entries.get? key = some value := by
  induction entries with
  | nil =>
      cases member
  | cons entry entries inductionHypothesis =>
      obtain ⟨present, current⟩ := entry
      rw [List.map_cons, List.nodup_cons] at distinct
      rw [get?_cons]
      rcases List.mem_cons.mp member with isFirst | isLater
      · cases isFirst
        simp
      · have different : present ≠ key := by
          intro isKey
          have again : key ∈ entries.map Prod.fst := List.mem_map_of_mem isLater
          exact distinct.1 (isKey ▸ again)
        rw [if_neg different]
        exact inductionHypothesis distinct.2 isLater

/-- Writing what is there changes nothing. -/
theorem put_of_get?
    {entries : Mapping} {key : Text} {value : Value}
    (isThere : entries.get? key = some value) :
    entries.put key value = entries := by
  induction entries with
  | nil =>
      cases isThere
  | cons entry entries inductionHypothesis =>
      obtain ⟨present, current⟩ := entry
      rw [get?_cons] at isThere
      by_cases isKey : present = key
      · rw [if_pos isKey] at isThere
        cases isThere
        simp [put, isKey]
      · rw [if_neg isKey] at isThere
        simp [put, isKey, inductionHypothesis isThere]

/-- Of two values written under a key the later one stays. -/
theorem put_put
    (entries : Mapping) (key : Text) (first second : Value) :
    (entries.put key first).put key second = entries.put key second := by
  induction entries with
  | nil =>
      simp [put]
  | cons entry entries inductionHypothesis =>
      obtain ⟨present, current⟩ := entry
      by_cases isKey : present = key <;> simp [put, isKey, inductionHypothesis]

/-- A key that is there can be written before another one as well as after it. -/
theorem put_comm_of_mem
    {entries : Mapping} {key other : Text}
    (isThere : key ∈ entries.map Prod.fst)
    (different : other ≠ key)
    (value otherValue : Value) :
    (entries.put other otherValue).put key value =
      (entries.put key value).put other otherValue := by
  induction entries with
  | nil =>
      cases isThere
  | cons entry entries inductionHypothesis =>
      obtain ⟨present, current⟩ := entry
      by_cases isKey : present = key
      · simp [put, isKey, Ne.symm different]
      · have isLater : key ∈ entries.map Prod.fst :=
          (List.mem_cons.mp isThere).resolve_left (Ne.symm isKey)
        by_cases isOther : present = other
        · simp [put, isOther, different]
        · simp [put, isKey, isOther, inductionHypothesis isLater]

/-- Under a key that does not come, a merged mapping is as it was; under any other one it has what
came for the key, merged with what was there. -/
theorem get?_merge
    {incoming : Mapping}
    (distinct : (incoming.map Prod.fst).Nodup)
    (current : Mapping) (key : Text) :
    get? (merge current incoming) key =
      match incoming.get? key with
      | none => current.get? key
      | some value => some (mergeValue (current.get? key) value) := by
  induction incoming generalizing current with
  | nil =>
      simp [merge, get?]
  | cons entry incoming inductionHypothesis =>
      obtain ⟨present, value⟩ := entry
      rw [List.map_cons, List.nodup_cons] at distinct
      rw [merge, inductionHypothesis distinct.2, get?_put, get?_cons]
      by_cases isKey : present = key
      · subst isKey
        rw [get?_eq_none_iff.mpr distinct.1]
        simp
      · simp [isKey]

/-- A merge replaces whatever stood under a key by a value that is no mapping. -/
theorem get?_merge_list
    {incoming : Mapping}
    (distinct : (incoming.map Prod.fst).Nodup)
    (current : Mapping) {key : Text} {items : List Value}
    (isList : incoming.get? key = some (.list items)) :
    get? (merge current incoming) key = some (.list items) := by
  rw [get?_merge distinct, isList]
  cases current.get? key with
  | none =>
      simp [mergeValue]
  | some present =>
      cases present <;> simp [mergeValue]

/-- A merge leaves the value of a key that the incoming mapping does not have. -/
theorem get?_merge_of_new
    {incoming : Mapping}
    (distinct : (incoming.map Prod.fst).Nodup)
    (current : Mapping) {key : Text}
    (isNew : incoming.get? key = none) :
    get? (merge current incoming) key = current.get? key := by
  rw [get?_merge distinct, isNew]

end GradleScript.Mapping
