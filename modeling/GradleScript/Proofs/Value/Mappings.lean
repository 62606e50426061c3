import GradleScript.Value.Mapping
import Mathlib.Data.List.Nodup

namespace GradleScript.Mapping

/-!
# Reading and writing mappings

What is read of a mapping after a value has been written, and how a mapping grows by keys that are
new to it.
-/

/-- A written value is read back, and every other key keeps its value. -/
theorem get?_put
    (entries : Mapping) (key other : Text) (value : Value) :
    (entries.put key value).get? other =
      if key = other then some value else entries.get? other := by
  induction entries with
  | nil =>
      simp [put, get?]
  | cons entry rest inductionHypothesis =>
      obtain ⟨present, current⟩ := entry
      by_cases isKey : present = key
      · subst isKey
        by_cases isOther : present = other <;> simp [put, get?, isOther]
      · by_cases isOther : present = other
        · subst isOther
          simp [put, get?, isKey, Ne.symm isKey]
        · simp [put, get?, isKey, isOther, inductionHypothesis]

/-- Nothing is found under a key that a mapping does not have. -/
theorem get?_eq_none_iff
    {entries : Mapping} {key : Text} :
    entries.get? key = none ↔ key ∉ entries.map Prod.fst := by
  induction entries with
  | nil =>
      simp [get?]
  | cons entry rest inductionHypothesis =>
      obtain ⟨present, current⟩ := entry
      by_cases isKey : present = key
      · simp [get?, isKey]
      · simp [get?, isKey, Ne.symm isKey, inductionHypothesis]

/-- A new key is written at the end. -/
theorem put_of_new
    {entries : Mapping} {key : Text}
    (isNew : key ∉ entries.map Prod.fst)
    (value : Value) :
    entries.put key value = entries ++ [(key, value)] := by
  induction entries with
  | nil =>
      rfl
  | cons entry rest inductionHypothesis =>
      obtain ⟨present, current⟩ := entry
      rw [List.map_cons, List.mem_cons, not_or] at isNew
      simp [put, Ne.symm isNew.1, inductionHypothesis isNew.2]

/-- A key that is there is written at its place. -/
theorem keys_put_of_mem
    {entries : Mapping} {key : Text}
    (isThere : key ∈ entries.map Prod.fst)
    (value : Value) :
    (entries.put key value).map Prod.fst = entries.map Prod.fst := by
  induction entries with
  | nil =>
      cases isThere
  | cons entry rest inductionHypothesis =>
      obtain ⟨present, current⟩ := entry
      by_cases isKey : present = key
      · simp [put, isKey]
      · have isLater : key ∈ rest.map Prod.fst :=
          (List.mem_cons.mp isThere).resolve_left (Ne.symm isKey)
        simp [put, isKey, inductionHypothesis isLater]

/-- Writing leaves the keys as they are, with a new one at the end. -/
theorem keys_put
    (entries : Mapping) (key : Text) (value : Value) :
    (entries.put key value).map Prod.fst =
      if key ∈ entries.map Prod.fst then entries.map Prod.fst
      else entries.map Prod.fst ++ [key] := by
  split
  · next isThere =>
      exact keys_put_of_mem isThere value
  · next isNew =>
      rw [put_of_new isNew, List.map_append]
      rfl

/-- The value of a new key is recorded at the end. -/
theorem add_of_new
    {entries : Mapping} {key : Text}
    (keyNotEmpty : key ≠ [])
    (isNew : key ∉ entries.map Prod.fst)
    (value : Value) :
    entries.add key value = entries ++ [(key, value)] := by
  have keyed : key.isEmpty = false := by simpa using keyNotEmpty
  unfold add
  rw [keyed, get?_eq_none_iff.mpr isNew, put_of_new isNew]
  rfl

/-- Entries with new keys are merged at the end. -/
theorem merge_of_new
    {current incoming : Mapping}
    (distinct : ((current ++ incoming).map Prod.fst).Nodup) :
    merge current incoming = current ++ incoming := by
  induction incoming generalizing current with
  | nil =>
      simp [merge]
  | cons entry incoming inductionHypothesis =>
      obtain ⟨key, value⟩ := entry
      have isNew : key ∉ current.map Prod.fst := by
        rw [List.map_append, List.map_cons] at distinct
        intro member
        exact (List.disjoint_of_nodup_append distinct) member List.mem_cons_self
      have laterDistinct :
          (((current ++ [(key, value)]) ++ incoming).map Prod.fst).Nodup := by
        rw [List.append_assoc]
        exact distinct
      have later := inductionHypothesis laterDistinct
      rw [List.append_assoc] at later
      have noValue : get? current key = none := get?_eq_none_iff.mpr isNew
      have merged : mergeValue none value = value := by
        simp [mergeValue]
      rw [merge, noValue, merged, put_of_new isNew, later]
      rfl

end GradleScript.Mapping
