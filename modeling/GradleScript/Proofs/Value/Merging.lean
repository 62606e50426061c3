import GradleScript.Proofs.Value.Compatible

namespace GradleScript.Mapping

/-!
# Laws of merging

A merge appends the keys that are new and leaves the others in their places.  What has been merged
once is there: to merge it again changes nothing, at any depth.
-/

/-- The keys that are new come after those that are there. -/
theorem keys_merge
    {incoming : Mapping}
    (distinct : (incoming.map Prod.fst).Nodup)
    (current : Mapping) :
    (merge current incoming).map Prod.fst =
      current.map Prod.fst ++
        (incoming.map Prod.fst).filter (fun key => key ∉ current.map Prod.fst) := by
  induction incoming generalizing current with
  | nil =>
      simp [merge]
  | cons entry incoming inductionHypothesis =>
      obtain ⟨key, value⟩ := entry
      rw [List.map_cons, List.nodup_cons] at distinct
      obtain ⟨notAgain, distinct⟩ := distinct
      rw [merge, inductionHypothesis distinct, keys_put, List.map_cons]
      by_cases isThere : key ∈ current.map Prod.fst
      · rw [if_pos isThere, List.filter_cons_of_neg (by simpa using isThere)]
      · -- The key itself does not come again, so it is the same to look for the later ones.
        have later :
            (incoming.map Prod.fst).filter
                (fun other => other ∉ current.map Prod.fst ++ [key]) =
              (incoming.map Prod.fst).filter (fun other => other ∉ current.map Prod.fst) := by
          apply List.filter_congr
          intro other member
          have different : other ≠ key := fun isKey => notAgain (isKey ▸ member)
          simp [different]
        rw [if_neg isThere, List.filter_cons_of_pos (by simpa using isThere), later,
          List.append_assoc, List.singleton_append]

/-- A merge changes nothing when under every key that comes it leaves what is there. -/
theorem merge_eq_self
    {current incoming : Mapping}
    (leaves :
      ∀ entry ∈ incoming, ∃ present,
        current.get? entry.1 = some present ∧ mergeValue (some present) entry.2 = present) :
    merge current incoming = current := by
  induction incoming with
  | nil =>
      rw [merge]
  | cons entry incoming inductionHypothesis =>
      obtain ⟨key, value⟩ := entry
      rw [List.forall_mem_cons] at leaves
      obtain ⟨⟨present, isThere, same⟩, later⟩ := leaves
      rw [merge, isThere, same, put_of_get? isThere]
      exact inductionHypothesis later

/-- What has been merged into a mapping is merged again without effect, if each of its values is. -/
theorem merge_again_of_values
    {incoming : Mapping}
    (distinct : (incoming.map Prod.fst).Nodup)
    (values :
      ∀ entry ∈ incoming, ∀ present,
        mergeValue (some (mergeValue present entry.2)) entry.2 = mergeValue present entry.2)
    (current : Mapping) :
    merge (merge current incoming) incoming = merge current incoming := by
  apply merge_eq_self
  intro entry member
  refine ⟨mergeValue (current.get? entry.1) entry.2, ?_, values entry member _⟩
  rw [get?_merge distinct, get?_of_mem distinct member]

/-- A value that is no mapping replaces what is there. -/
theorem mergeValue_of_ne_mapping
    {value : Value}
    (noMapping : ∀ entries, value ≠ .mapping entries)
    (present : Option Value) :
    mergeValue present value = value :=
  mergeValue.eq_2 present value fun _ entries _ isMapping => noMapping entries isMapping

/-- What replaces everything does so again. -/
theorem mergeValue_again_of_ne_mapping
    {value : Value}
    (noMapping : ∀ entries, value ≠ .mapping entries)
    (present : Option Value) :
    mergeValue (some (mergeValue present value)) value = mergeValue present value := by
  rw [mergeValue_of_ne_mapping noMapping, mergeValue_of_ne_mapping noMapping]

/-- A mapping is merged again without effect, if each of its values is, whatever it has been merged
with. -/
theorem mergeValue_mapping_again
    {incoming : Mapping}
    (distinct : (incoming.map Prod.fst).Nodup)
    (values :
      ∀ entry ∈ incoming, ∀ present,
        mergeValue (some (mergeValue present entry.2)) entry.2 = mergeValue present entry.2)
    (present : Option Value) :
    mergeValue (some (mergeValue present (.mapping incoming))) (.mapping incoming) =
      mergeValue present (.mapping incoming) := by
  have again := merge_again_of_values distinct values
  by_cases isMapping : ∃ current, present = some (.mapping current)
  · obtain ⟨current, rfl⟩ := isMapping
    rw [mergeValue.eq_1, mergeValue.eq_1, again current]
  · have replaced : mergeValue present (.mapping incoming) = .mapping incoming :=
      mergeValue.eq_2 present _ fun current _ isPresent _ => isMapping ⟨current, isPresent⟩
    have fresh : merge [] incoming = incoming := merge_of_new distinct
    have whole := again []
    rw [fresh] at whole
    rw [replaced, mergeValue.eq_1, whole]

mutual

/-- A value is merged again without effect, at any depth. -/
theorem mergeValue_again :
    (value : Value) → ValueWellKeyed value → (present : Option Value) →
      mergeValue (some (mergeValue present value)) value = mergeValue present value
  | .mapping incoming, wellKeyed, present =>
      mergeValue_mapping_again (WellKeyed.distinct wellKeyed)
        (mergeValues_again incoming wellKeyed) present
  | .null, _, _ | .boolean _, _, _ | .integer _, _, _ | .text _, _, _ | .list _, _, _
  | .set _, _, _ | .repository _ _, _, _ =>
      mergeValue_again_of_ne_mapping (by nofun) _

/-- Every value of a mapping is merged again without effect. -/
theorem mergeValues_again :
    (entries : List (Text × Value)) → WellKeyed entries →
      ∀ entry ∈ entries, ∀ present,
        mergeValue (some (mergeValue present entry.2)) entry.2 = mergeValue present entry.2
  | [], _ => nofun
  | (_, value) :: entries, ⟨_, ofValue, later⟩ =>
      List.forall_mem_cons.mpr
        ⟨mergeValue_again value ofValue, mergeValues_again entries later⟩

end

/-- A mapping is merged again without effect. -/
theorem merge_again
    {incoming : Mapping}
    (wellKeyed : WellKeyed incoming)
    (current : Mapping) :
    merge (merge current incoming) incoming = merge current incoming :=
  merge_again_of_values wellKeyed.distinct (mergeValues_again incoming wellKeyed) current

/-- A mapping is merged with itself without effect. -/
theorem merge_self
    {entries : Mapping}
    (wellKeyed : WellKeyed entries) :
    merge entries entries = entries := by
  have fresh : merge [] entries = entries := merge_of_new wellKeyed.distinct
  have again := merge_again wellKeyed []
  rw [fresh] at again
  exact again

/-- Under a key that both have, two mappings are merged, and any other value that comes replaces the
one that is there; under any other key each value stays. -/
theorem get?_merge_cases
    {incoming : Mapping}
    (distinct : (incoming.map Prod.fst).Nodup)
    (current : Mapping) (key : Text) :
    get? (merge current incoming) key =
      match current.get? key, incoming.get? key with
      | some (.mapping first), some (.mapping second) => some (.mapping (merge first second))
      | _, some value => some value
      | present, none => present := by
  rw [get?_merge distinct]
  cases incoming.get? key with
  | none =>
      cases current.get? key with
      | none =>
          rfl
      | some present =>
          cases present <;> rfl
  | some value =>
      dsimp only
      split
      · next first second isPresent isValue =>
          cases isValue
          rw [isPresent]
          exact congrArg some (mergeValue.eq_1 first second)
      · next other isValue notMappings =>
          cases isValue
          exact congrArg some (mergeValue.eq_2 (current.get? key) value notMappings)
      · next isNone =>
          cases isNone

end GradleScript.Mapping
