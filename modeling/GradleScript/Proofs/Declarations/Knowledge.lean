import GradleScript.Journal
import GradleScript.Proofs.Declarations.Syntax
import GradleScript.Proofs.Value.Mappings

namespace GradleScript.Declarations

/-!
# What the variables know of the declarations

While files are read, the variables hold the declarations that have been read so far, and besides
them the configurations of the dependencies, which are written as variables too.  A reference to a
name that is no configuration is resolved as the declarations say.
-/

/-- A declaration as it is stored. -/
def storedEntry (declaration : Text × Text) : Text × Value :=
  (declaration.1, .ofScalar declaration.2)

/-- Whether variables hold just the given declarations, apart from some names. -/
def Knows (apart : List Text) (table : Variables) (known : List (Text × Text)) : Prop :=
  ∀ name, name ∉ apart →
    ∀ value, table.get? name = some value ↔ ∃ text, (name, text) ∈ known ∧ value = .ofScalar text

/-- Whether no name is declared with two texts. -/
def Consistent (declared : List (Text × Text)) : Prop :=
  ∀ name first second, (name, first) ∈ declared → (name, second) ∈ declared → first = second

/-- What is known of every single declaration. -/
structure Sound (declaration : Text × Text) : Prop where
  nameNotEmpty : declaration.1 ≠ []
  nameUnmarked : stripExt declaration.1 = declaration.1
  textNotEmpty : declaration.2 ≠ []
  textUnquoted : '"' ∉ declaration.2

/-! ## Declarations -/

/-- Names that are declared once are declared with one text. -/
theorem consistent_of_nodup
    {declared : List (Text × Text)}
    (once : (declared.map Prod.fst).Nodup) :
    Consistent declared := by
  intro name first second firstMember secondMember
  have same : ((name, first) : Text × Text) = (name, second) :=
    List.inj_on_of_nodup_map once firstMember secondMember rfl
  exact congrArg Prod.snd same

/-- A part of consistent declarations is consistent. -/
theorem Consistent.of_subset
    {declared part : List (Text × Text)}
    (consistent : Consistent declared)
    (within : ∀ declaration ∈ part, declaration ∈ declared) :
    Consistent part :=
  fun name first second firstMember secondMember =>
    consistent name first second (within _ firstMember) (within _ secondMember)

/-- A text that is looked up for a name is declared for it. -/
theorem mem_of_lookup_eq_some
    {declared : List (Text × Text)} {name text : Text}
    (found : declared.lookup name = some text) :
    (name, text) ∈ declared := by
  obtain ⟨before, after, shape, _⟩ := List.lookup_eq_some_iff.mp found
  rw [shape]
  exact List.mem_append_right before List.mem_cons_self

/-- A name for which no text is found is not declared. -/
theorem not_mem_of_lookup_eq_none
    {declared : List (Text × Text)} {name : Text}
    (missing : declared.lookup name = none)
    (text : Text) :
    (name, text) ∉ declared := by
  intro member
  have different := List.lookup_eq_none_iff.mp missing (name, text) member
  simp at different

/-- The text of a name is the one it is declared with. -/
theorem lookup_eq_some_iff
    {declared : List (Text × Text)} {name text : Text}
    (consistent : Consistent declared) :
    declared.lookup name = some text ↔ (name, text) ∈ declared := by
  constructor
  · exact mem_of_lookup_eq_some
  · intro member
    cases found : declared.lookup name with
    | none =>
        exact (not_mem_of_lookup_eq_none found text member).elim
    | some other =>
        rw [consistent name other text (mem_of_lookup_eq_some found) member]

/-- The texts of names depend on the declarations alone, and not on their order. -/
theorem lookup_congr
    {first second : List (Text × Text)}
    (consistent : Consistent first)
    (same : ∀ declaration, declaration ∈ first ↔ declaration ∈ second)
    (name : Text) :
    first.lookup name = second.lookup name := by
  have secondConsistent : Consistent second :=
    consistent.of_subset fun declaration member => (same declaration).mpr member
  refine Option.ext fun text => ?_
  rw [lookup_eq_some_iff consistent, lookup_eq_some_iff secondConsistent, same]

/-- The name of a declaration does not begin with the marker of extra properties. -/
theorem stripExt_of_identifier
    (name : Identifier) :
    stripExt name.word = name.word := by
  have unmarked : extMarker.isPrefixOf name.word = false := by
    rw [Bool.eq_false_iff]
    intro marked
    obtain ⟨rest, shape⟩ := List.isPrefixOf_iff_prefix.mp marked
    have dot : '.' ∈ name.word := by
      rw [← shape]
      exact List.mem_append_left rest (by decide)
    have isReference := name.chars '.' dot
    contradiction
  unfold stripExt
  rw [unmarked]
  rfl

/-- A declaration has a name and a text that can be written between double quotes. -/
theorem Declaration.sound
    (declaration : Declaration) :
    Sound (declaration.name.word, declaration.value) where
  nameNotEmpty := declaration.name.notEmpty
  nameUnmarked := stripExt_of_identifier declaration.name.toIdentifier
  textNotEmpty := declaration.notEmpty
  textUnquoted := by
    intro member
    have noQuote := declaration.noQuote '"' member
    contradiction

/-- Every declaration of an `ext` block has such a name and such a text. -/
theorem ExtBlock.sound
    (block : ExtBlock) :
    ∀ declaration ∈ block.declared, Sound declaration := by
  intro declaration member
  obtain ⟨line, _, lineMember⟩ := List.mem_flatMap.mp member
  cases line with
  | filler filler =>
      cases lineMember
  | declaration item =>
      rw [List.mem_singleton.mp lineMember]
      exact item.sound

/-! ## Writing variables -/

/-- What variables know depends on which declarations there are, and not on their order. -/
theorem Knows.congr
    {apart : List Text} {table : Variables} {first second : List (Text × Text)}
    (knows : Knows apart table first)
    (same : ∀ declaration, declaration ∈ first ↔ declaration ∈ second) :
    Knows apart table second := by
  intro name isApart value
  simp only [← same]
  exact knows name isApart value

/-- A declaration that is written is known. -/
theorem Knows.set
    {apart : List Text} {table : Variables} {known : List (Text × Text)} {name text : Text}
    (knows : Knows apart table known)
    (consistent : Consistent ((name, text) :: known)) :
    Knows apart (table.set name (.ofScalar text)) ((name, text) :: known) := by
  intro other isApart value
  have read := Mapping.get?_put table.values name other (.ofScalar text)
  by_cases isName : name = other
  · subst isName
    rw [if_pos rfl] at read
    constructor
    · intro found
      have shape := read.symm.trans found
      exact ⟨text, List.mem_cons_self, (Option.some.inj shape).symm⟩
    · rintro ⟨otherText, member, rfl⟩
      rw [consistent name otherText text member List.mem_cons_self]
      exact read
  · rw [if_neg isName] at read
    have others :
        (∃ otherText, (other, otherText) ∈ (name, text) :: known ∧ value = .ofScalar otherText) ↔
          ∃ otherText, (other, otherText) ∈ known ∧ value = .ofScalar otherText := by
      simp [Ne.symm isName]
    rw [others, ← knows other isApart value]
    exact Eq.congr_left read

/-- What is written under the other names is not asked for. -/
theorem Knows.set_apart
    {apart : List Text} {table : Variables} {known : List (Text × Text)} {name : Text}
    (knows : Knows apart table known)
    (isApart : name ∈ apart)
    (value : Value) :
    Knows apart (table.set name value) known := by
  intro other otherApart otherValue
  have different : name ≠ other := by
    rintro rfl
    exact otherApart isApart
  have read := Mapping.get?_put table.values name other value
  rw [if_neg different] at read
  rw [← knows other otherApart otherValue]
  exact Eq.congr_left read

/-- A name without the marker is written as it is. -/
theorem table_set
    (journal : Journal) {name : Text}
    (notEmpty : name ≠ [])
    (unmarked : stripExt name = name)
    (value : Value) :
    (journal.set name value).table = journal.table.set name value := by
  have named : name.isEmpty = false := by simpa using notEmpty
  unfold Journal.set
  simp only [unmarked, named, Bool.false_eq_true, if_false]

/-- Declarations that are written one after another are known. -/
theorem Knows.update
    {apart : List Text} {journal : Journal} {known declared : List (Text × Text)}
    (knows : Knows apart journal.table known)
    (sound : ∀ declaration ∈ declared, Sound declaration)
    (consistent : Consistent (known ++ declared)) :
    Knows apart (journal.update (declared.map storedEntry)).table (known ++ declared) := by
  induction declared generalizing journal known with
  | nil =>
      rw [List.append_nil]
      exact knows
  | cons declaration declared inductionHypothesis =>
      obtain ⟨name, text⟩ := declaration
      have nameSound := sound (name, text) List.mem_cons_self
      have sameMembers :
          ∀ other,
            other ∈ ((name, text) :: known) ++ declared ↔
              other ∈ known ++ (name, text) :: declared := by
        intro other
        simp only [List.mem_append, List.mem_cons]
        tauto
      have written :
          Knows apart (journal.set name (.ofScalar text)).table ((name, text) :: known) := by
        rw [table_set journal nameSound.nameNotEmpty nameSound.nameUnmarked]
        refine knows.set (consistent.of_subset fun other member => ?_)
        exact (sameMembers other).mp (List.mem_append_left declared member)
      have later :=
        inductionHypothesis written
          (fun other member => sound other (List.mem_cons_of_mem _ member))
          (consistent.of_subset fun other member => (sameMembers other).mp member)
      exact later.congr sameMembers

/-! ## Resolving references -/

/-- A scalar is spliced as the text it was made of. -/
theorem spliced_ofScalar
    (text : Text) :
    (Value.ofScalar text).spliced = text := by
  unfold Value.ofScalar
  by_cases isTrue : text = "true".toList
  · subst isTrue
    rfl
  · by_cases isFalse : text = "false".toList
    · subst isFalse
      rfl
    · simp only [beq_iff_eq, isTrue, isFalse, if_false]
      rfl

/-- A reference to a name that is not apart is resolved as it is declared. -/
theorem Knows.resolve_eq
    {apart : List Text} {journal : Journal} {known : List (Text × Text)} {name : Text}
    (knows : Knows apart journal.table known)
    (isApart : name ∉ apart)
    (fallback : Text) :
    (journal.resolve name fallback).1 = (known.lookup name).getD fallback ∧
      (journal.resolve name fallback).2.table = journal.table := by
  unfold Journal.resolve
  cases lookedUp : known.lookup name with
  | none =>
      have unknown : journal.table.get? name = none := by
        cases found : journal.table.get? name with
        | none =>
            rfl
        | some value =>
            obtain ⟨text, member, _⟩ := (knows name isApart value).mp found
            exact (not_mem_of_lookup_eq_none lookedUp text member).elim
      rw [unknown]
      exact ⟨rfl, rfl⟩
  | some text =>
      have found := (knows name isApart (.ofScalar text)).mpr
        ⟨text, mem_of_lookup_eq_some lookedUp, rfl⟩
      rw [found]
      exact ⟨spliced_ofScalar text, rfl⟩

/-- The text that stands for a piece in a journal, and the journal that resolving it leaves. -/
def Piece.splice (journal : Journal) : Piece → Text × Journal
  | .literal text _ _ _ _ =>
      (text, journal)
  | .reference form name =>
      journal.resolve name.word (State.writtenName form name.word)

/-- The text that stands for pieces, and the journal that resolving them leaves. -/
def splicePieces (journal : Journal) : List Piece → Text × Journal
  | [] =>
      ([], journal)
  | piece :: pieces =>
      ((piece.splice journal).1 ++ (splicePieces (piece.splice journal).2 pieces).1,
        (splicePieces (piece.splice journal).2 pieces).2)

/-- A piece of a text is spliced as what its name has been declared to be, and nothing is
written. -/
theorem Knows.splice_eq
    {apart : List Text} {journal : Journal} {known : List (Text × Text)} {piece : Piece}
    (knows : Knows apart journal.table known)
    (referencesApart : ∀ name ∈ piece.referenced, name ∉ apart) :
    (piece.splice journal).1 = piece.resolved known ∧
      (piece.splice journal).2.table = journal.table := by
  cases piece with
  | literal text oneLine noQuote noDollar noBackslash =>
      exact ⟨rfl, rfl⟩
  | reference form name =>
      exact knows.resolve_eq (referencesApart name.word List.mem_cons_self) _

/-- Pieces are resolved as the declarations say. -/
theorem Knows.splicePieces_eq
    {apart : List Text} {journal : Journal} {known : List (Text × Text)}
    {pieces : List Piece}
    (knows : Knows apart journal.table known)
    (referencesApart : ∀ name ∈ pieces.flatMap Piece.referenced, name ∉ apart) :
    (splicePieces journal pieces).1 = resolvedPieces known pieces ∧
      (splicePieces journal pieces).2.table = journal.table := by
  induction pieces generalizing journal with
  | nil =>
      exact ⟨rfl, rfl⟩
  | cons piece pieces inductionHypothesis =>
      have pieceApart : ∀ name ∈ piece.referenced, name ∉ apart :=
        fun name member => referencesApart name (by simp [member])
      have laterApart : ∀ name ∈ pieces.flatMap Piece.referenced, name ∉ apart := by
        intro name member
        rw [List.flatMap_cons] at referencesApart
        exact referencesApart name (List.mem_append_right _ member)
      obtain ⟨pieceText, pieceTable⟩ := knows.splice_eq pieceApart
      have laterKnows : Knows apart (piece.splice journal).2.table known := by
        rw [pieceTable]
        exact knows
      obtain ⟨laterText, laterTable⟩ := inductionHypothesis laterKnows laterApart
      constructor
      · change (piece.splice journal).1 ++ (splicePieces (piece.splice journal).2 pieces).1 = _
        rw [pieceText, laterText]
        rfl
      · exact laterTable.trans pieceTable

/-! ## Resolved texts -/

/-- A piece that is not empty is resolved to a text that is not empty, and no piece brings a double
quote. -/
theorem Piece.resolved_spec
    {known : List (Text × Text)}
    (sound : ∀ declaration ∈ known, Sound declaration)
    (piece : Piece) :
    (piece.written ≠ [] → piece.resolved known ≠ []) ∧ '"' ∉ piece.resolved known := by
  cases piece with
  | literal text oneLine noQuote noDollar noBackslash =>
      exact ⟨id, noQuote⟩
  | reference form name =>
      have notInName : '"' ∉ name.word := by
        intro member
        have isReference := name.chars '"' member
        contradiction
      cases found : known.lookup name.word with
      | none =>
          simp only [Piece.resolved, found, Option.getD_none]
          cases form <;> simp [State.writtenName, notInName]
      | some text =>
          have textSound := sound _ (mem_of_lookup_eq_some found)
          simp only [Piece.resolved, found, Option.getD_some]
          exact ⟨fun _ => textSound.textNotEmpty, textSound.textUnquoted⟩

/-- Pieces that are not empty are resolved to a text that is not empty. -/
theorem resolvedPieces_ne_nil
    {known : List (Text × Text)} {pieces : List Piece}
    (sound : ∀ declaration ∈ known, Sound declaration)
    (notEmpty : writtenPieces pieces ≠ []) :
    resolvedPieces known pieces ≠ [] := by
  intro empty
  refine notEmpty (List.flatMap_eq_nil_iff.mpr fun piece member => ?_)
  by_contra written
  exact (piece.resolved_spec sound).1 written (List.flatMap_eq_nil_iff.mp empty piece member)

/-- No pieces bring a double quote. -/
theorem not_mem_resolvedPieces
    {known : List (Text × Text)}
    (sound : ∀ declaration ∈ known, Sound declaration)
    (pieces : List Piece) :
    '"' ∉ resolvedPieces known pieces := by
  intro member
  obtain ⟨piece, _, inPiece⟩ := List.mem_flatMap.mp member
  exact (piece.resolved_spec sound).2 inPiece

/-- What dependencies mean depends on the declarations alone, and not on their order. -/
theorem Dependencies.meaning_congr
    {first second : List (Text × Text)}
    (consistent : Consistent first)
    (same : ∀ declaration, declaration ∈ first ↔ declaration ∈ second)
    (block : Dependencies) :
    block.meaning first = block.meaning second := by
  have resolvedSame : Piece.resolved first = Piece.resolved second := by
    funext piece
    cases piece with
    | literal text oneLine noQuote noDollar noBackslash =>
        rfl
    | reference form name =>
        simp only [Piece.resolved, lookup_congr consistent same]
  have lineSame : DependencyLine.meaning first = DependencyLine.meaning second := by
    funext entries line
    cases line with
    | filler filler =>
        rfl
    | entry entry =>
        unfold DependencyLine.meaning resolvedPieces
        rw [resolvedSame]
  unfold Dependencies.meaning
  rw [lineSame]

end GradleScript.Declarations
