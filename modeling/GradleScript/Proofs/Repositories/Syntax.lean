import GradleScript.Proofs.Script.Nesting
import GradleScript.Proofs.Value.Mappings
import Mathlib.Data.List.Dedup

namespace GradleScript.Repositories

/-!
# Blocks of repositories

The block that lists repositories has one directive on a line: a call without arguments, a name with
a literal, or a block.  This module gives the directives, how they are written, and the repository
that each of them stands for.  What is read of them are the entries of a mapping, and the key of a
directive has one of these: directives with the same key come to one repository.
-/

/-! ## Directives -/

/-- How the directives are read. -/
def directiveMode : Mode where
  keepCalls := true
  keepEmpty := true

/-- The beginning of a reading of the body of a directive on its own, up to the brace that ends
it. -/
def bodyStart (text : Text) : State :=
  State.start (Session.ofText (Script.closedBody text) true {}) directiveMode false

/-- The mapping that the body of a directive denotes. -/
def bodyMapping (text : Text) : Mapping :=
  ((bodyStart text).run Closures.standard).2

/-- The body of a directive: the brace on the line after it ends it, no earlier one does, and it
says something. -/
structure Body where
  text : Text
  isBody : ∃ last, State.ReadsBody Closures.standard (bodyStart text) last
  notEmpty : bodyMapping text ≠ []

/-- A directive. -/
inductive Directive where
  | call (name : Plain.BlockKey)
  | value
      (name : Plain.BlockKey) (literal : Plain.Literal)
      (noDollar : '$' ∉ literal.body) (notFalse : literal.body ≠ "false".toList)
  | block (name : Plain.BlockKey) (body : Body)

namespace Directive

/-- A directive as it is written, without its line end. -/
def text : Directive → Text
  | .call name =>
      name.word ++ ['(', ')']
  | .value name literal _ _ =>
      name.word ++ ' ' :: literal.text
  | .block name body =>
      name.word ++ ' ' :: '{' :: '\n' :: Script.closedBody body.text

/-- The key under which a directive is recorded. -/
def key : Directive → Text
  | .call name =>
      name.word ++ ['(', ')']
  | .value name _ _ _ =>
      name.word
  | .block name _ =>
      name.word

/-- The value that a directive alone has under its key. -/
def entry : Directive → Value
  | .call _ =>
      .text []
  | .value _ literal _ _ =>
      .ofScalar literal.body
  | .block _ body =>
      .mapping (bodyMapping body.text)

/-- The repository that a directive stands for. -/
def repository : Directive → Value
  | .call name =>
      .repository bareRepositoryKind [("name".toList, .text name.word)]
  | .value name literal _ _ =>
      .repository name.word [("value".toList, .ofScalar literal.body)]
  | .block name body =>
      .repository name.word (bodyMapping body.text)

/-- What a directive makes of the entries before it. -/
def meaning (entries : Mapping) (directive : Directive) : Mapping :=
  match directive with
  | .call _ | .value _ _ _ _ =>
      entries.add directive.key directive.entry
  | .block _ _ =>
      entries.put directive.key
        (Mapping.mergeValue (entries.get? directive.key) directive.entry)

end Directive

/-- Directives as they are written, each with its line end. -/
def directivesText (directives : List Directive) : Text :=
  directives.flatMap fun directive => directive.text ++ ['\n']

/-- A block of repositories as it is written. -/
def blockText (directives : List Directive) : Text :=
  Closures.repositoriesKey ++ ' ' :: '{' :: '\n' :: directivesText directives ++ ['}']

/-- What directives make of the entries before them. -/
def directivesMeaning (entries : Mapping) (directives : List Directive) : Mapping :=
  directives.foldl Directive.meaning entries

/-! ## The repository of a directive -/

/-- A name is made of the characters of keys. -/
theorem not_mem_word
    (name : Plain.BlockKey) {ch : Char}
    (noKeyChar : Plain.isKeyChar ch = false) :
    ch ∉ name.word := by
  intro member
  rw [name.chars ch member] at noKeyChar
  cases noKeyChar

/-- A called name is the name of the call. -/
theorem callName_call (word : Text) : callName (word ++ ['(', ')']) = word := by
  unfold callName
  rw [if_pos (List.isSuffixOf_iff_suffix.mpr (List.suffix_append word ['(', ')'])),
    List.length_append]
  exact List.take_left

/-- A name that is not called stands for itself. -/
theorem callName_word (name : Plain.BlockKey) : callName name.word = name.word := by
  unfold callName
  rw [if_neg]
  intro isCall
  have isSuffix := List.isSuffixOf_iff_suffix.mp isCall
  exact not_mem_word name (by decide) (isSuffix.subset List.mem_cons_self)

/-- A text that is not empty, and does not say that something is not so, is a value with content. -/
theorem isEmpty_ofScalar
    {text : Text}
    (notEmpty : text ≠ [])
    (notFalse : text ≠ "false".toList) :
    (Value.ofScalar text).isEmpty = false := by
  unfold Value.ofScalar
  split
  · rfl
  · split
    · next isFalse =>
        exact (notFalse (beq_iff_eq.mp isFalse)).elim
    · simpa [Value.isEmpty] using notEmpty

/-- What a directive alone has recorded denotes the repository it stands for. -/
theorem directiveRepository_entry
    (directive : Directive) :
    directiveRepository directive.key directive.entry = directive.repository := by
  unfold directiveRepository
  cases directive with
  | call name =>
      rw [Directive.key, callName_call]
      rfl
  | value name literal noDollar notFalse =>
      rw [Directive.key, Directive.entry, callName_word,
        isEmpty_ofScalar literal.notEmpty notFalse, if_neg Bool.false_ne_true]
      unfold Value.ofScalar
      split
      · next entries isMapping =>
          split at isMapping
          · cases isMapping
          · split at isMapping <;> cases isMapping
      · rfl
  | block name body =>
      have nonempty : (Value.mapping (bodyMapping body.text)).isEmpty = false := by
        simpa [Value.isEmpty] using body.notEmpty
      rw [Directive.key, Directive.entry, callName_word, nonempty, if_neg Bool.false_ne_true]
      rfl

/-! ## The keys of directives -/

/-- No directive has an empty key. -/
theorem key_ne_nil (directive : Directive) : directive.key ≠ [] := by
  cases directive with
  | call name =>
      exact List.append_ne_nil_of_left_ne_nil name.notEmpty ['(', ')']
  | value name literal noDollar notFalse =>
      exact name.notEmpty
  | block name body =>
      exact name.notEmpty

/-- A directive with a new key is recorded at the end. -/
theorem meaning_of_new
    {entries : Mapping} {directive : Directive}
    (isNew : directive.key ∉ entries.map Prod.fst) :
    directive.meaning entries = entries ++ [(directive.key, directive.entry)] := by
  cases directive with
  | call name =>
      exact Mapping.add_of_new (key_ne_nil (.call name)) isNew _
  | value name literal noDollar notFalse =>
      exact Mapping.add_of_new (key_ne_nil (.value name literal noDollar notFalse)) isNew _
  | block name body =>
      have merged : ∀ value, Mapping.mergeValue none value = value := fun value => by
        simp [Mapping.mergeValue]
      unfold Directive.meaning
      dsimp only
      rw [Mapping.put_of_new isNew, Mapping.get?_eq_none_iff.mpr isNew, merged]

/-- A directive adds its key at the end, unless the key is there. -/
theorem keys_meaning
    (entries : Mapping) (directive : Directive) :
    (directive.meaning entries).map Prod.fst =
      if directive.key ∈ entries.map Prod.fst then entries.map Prod.fst
      else entries.map Prod.fst ++ [directive.key] := by
  have keyed : directive.key.isEmpty = false := by simpa using key_ne_nil directive
  unfold Directive.meaning
  split
  · unfold Mapping.add
    rw [keyed]
    exact Mapping.keys_put entries _ _
  · unfold Mapping.add
    rw [keyed]
    exact Mapping.keys_put entries _ _
  · exact Mapping.keys_put entries _ _

/-- The keys of the entries stay distinct, and are those before and those of the directives. -/
theorem keys_directivesMeaning
    {entries : Mapping}
    (distinct : (entries.map Prod.fst).Nodup)
    (directives : List Directive) :
    ((directivesMeaning entries directives).map Prod.fst).Nodup ∧
      ∀ key,
        key ∈ (directivesMeaning entries directives).map Prod.fst ↔
          key ∈ entries.map Prod.fst ∨ key ∈ directives.map Directive.key := by
  induction directives generalizing entries with
  | nil =>
      exact ⟨distinct, fun key => by simp [directivesMeaning]⟩
  | cons directive directives inductionHypothesis =>
      have keys := keys_meaning entries directive
      have nextDistinct : ((directive.meaning entries).map Prod.fst).Nodup := by
        rw [keys]
        split
        · exact distinct
        · next isNew =>
            exact distinct.append (List.nodup_singleton _) (by simpa using isNew)
      obtain ⟨laterDistinct, laterKeys⟩ := inductionHypothesis nextDistinct
      refine ⟨laterDistinct, ?_⟩
      intro key
      have members :
          key ∈ (directive.meaning entries).map Prod.fst ↔
            key ∈ entries.map Prod.fst ∨ key = directive.key := by
        rw [keys]
        split
        · next isThere =>
            exact ⟨.inl, fun isIn => isIn.elim id fun isKey => isKey ▸ isThere⟩
        · rw [List.mem_append, List.mem_singleton]
      have later := laterKeys key
      rw [members, or_assoc] at later
      rw [List.map_cons, List.mem_cons]
      exact later

/-- Directives have as many entries as they have keys. -/
theorem length_directivesMeaning
    (directives : List Directive) :
    (directivesMeaning [] directives).length = (directives.map Directive.key).dedup.length := by
  have noneYet : (([] : Mapping).map Prod.fst).Nodup := List.nodup_nil
  obtain ⟨distinct, keys⟩ := keys_directivesMeaning noneYet directives
  have sameKeys :
      ((directivesMeaning [] directives).map Prod.fst).Perm
        (directives.map Directive.key).dedup := by
    rw [List.perm_ext_iff_of_nodup distinct (List.nodup_dedup _)]
    intro key
    rw [keys, List.mem_dedup]
    simp
  rw [← sameKeys.length_eq, List.length_map]

/-- Directives whose keys are new and distinct are recorded one after another. -/
theorem directivesMeaning_of_new
    {entries : Mapping} {directives : List Directive}
    (distinct : (entries.map Prod.fst ++ directives.map Directive.key).Nodup) :
    directivesMeaning entries directives =
      entries ++ directives.map fun directive => (directive.key, directive.entry) := by
  induction directives generalizing entries with
  | nil =>
      exact (List.append_nil entries).symm
  | cons directive directives inductionHypothesis =>
      have isNew : directive.key ∉ entries.map Prod.fst := fun member =>
        List.disjoint_of_nodup_append distinct member List.mem_cons_self
      have laterDistinct :
          ((entries ++ [(directive.key, directive.entry)]).map Prod.fst ++
            directives.map Directive.key).Nodup := by
        rw [List.map_append, List.append_assoc]
        exact distinct
      calc
        directivesMeaning entries (directive :: directives) =
            directivesMeaning (entries ++ [(directive.key, directive.entry)]) directives := by
          rw [← meaning_of_new isNew]
          rfl
        _ = entries ++ [(directive.key, directive.entry)] ++
              directives.map fun directive => (directive.key, directive.entry) :=
          inductionHypothesis laterDistinct
        _ = _ := by
          rw [List.append_assoc]
          rfl

/-- Directives come to the repositories that they stand for exactly when no two of them have the
same key. -/
theorem repositoriesOf_directivesMeaning
    (directives : List Directive) :
    repositoriesOf (directivesMeaning [] directives) = directives.map Directive.repository ↔
      (directives.map Directive.key).Nodup := by
  constructor
  · intro same
    have lengths :
        (directives.map Directive.key).dedup.length = (directives.map Directive.key).length := by
      rw [← length_directivesMeaning, List.length_map, ← List.length_map Directive.repository,
        ← same]
      exact (List.length_map _).symm
    exact List.dedup_eq_self.mp ((List.dedup_sublist _).eq_of_length lengths)
  · intro distinct
    have noneYet : (([] : Mapping).map Prod.fst ++ directives.map Directive.key).Nodup := distinct
    rw [directivesMeaning_of_new noneYet, List.nil_append]
    unfold repositoriesOf
    rw [List.map_map]
    exact List.map_congr_left fun directive _ => directiveRepository_entry directive

end GradleScript.Repositories
