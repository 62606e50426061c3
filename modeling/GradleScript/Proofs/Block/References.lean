import GradleScript.Proofs.Block.Splicing

namespace GradleScript

/-!
# References as they are written

A reference is read from its dollar sign to the place where no name is read any more.  By then the
statement has got the value of the variable, or else the reference as it is written, character for
character, and nothing else of what has been read and stored is changed.
-/

/-- A reference as it stands in a text, in front of what follows it: its name, how it is written,
and whether it is complete. -/
inductive Reference : Text → Text → Bool → Text → Prop where
  /-- A name in braces. -/
  | braced {name : Text}
      (inside : ∀ ch ∈ name, ch ≠ '}' ∧ ch ≠ '\n')
      (following : Text) :
      Reference name ('$' :: '{' :: name ++ ['}']) true following
  /-- A name whose closing brace is missing on its line. -/
  | cutOff {name following : Text}
      (inside : ∀ ch ∈ name, ch ≠ '}' ∧ ch ≠ '\n')
      (ends : following = [] ∨ following.head? = some '\n') :
      Reference name ('$' :: '{' :: name) false following
  /-- A name without braces, which the text or a character behind it ends. -/
  | bare {name following : Text}
      (noBrace : (name ++ following).head? ≠ some '{')
      (inside : ∀ ch ∈ name, endsBareName ch = false)
      (ends : ∀ ch, following.head? = some ch → endsBareName ch = true) :
      Reference name ('$' :: name) true following

/-- What stands in a statement for a reference: the value of its name, if the reference is complete
and the name has a value, and else the reference as it is written. -/
def Variables.standIn (table : Variables) (name written : Text) (complete : Bool) : Text :=
  if complete then ((table.get? name).map Value.spliced).getD written else written

/-- Every text begins with the characters of a name, as far as none of them ends it. -/
theorem NameForm.exists_name
    (form : NameForm) (text : Text) :
    ∃ name following,
      text = name ++ following ∧
        (∀ ch ∈ name, form.endsAt ch = false) ∧
          ∀ ch, following.head? = some ch → form.endsAt ch = true := by
  induction text with
  | nil =>
      exact ⟨[], [], rfl, by simp, by simp⟩
  | cons ch text inductionHypothesis =>
      cases ends : form.endsAt ch with
      | true =>
          refine ⟨[], ch :: text, rfl, by simp, ?_⟩
          rintro first isFirst
          rw [List.head?_cons, Option.some.injEq] at isFirst
          rw [← isFirst, ends]
      | false =>
          obtain ⟨name, following, shape, inside, endsAtFollowing⟩ := inductionHypothesis
          refine ⟨ch :: name, following, congrArg (List.cons ch) shape, ?_, endsAtFollowing⟩
          rintro other member
          rcases List.mem_cons.mp member with rfl | later
          · exact ends
          · exact inside other later

/-- A braced name holds no closing brace and no line end. -/
theorem NameForm.endsAt_braced_eq_false_iff
    {ch : Char} :
    NameForm.braced.endsAt ch = false ↔ ch ≠ '}' ∧ ch ≠ '\n' := by
  simp [NameForm.endsAt]

namespace State

/-! ## Where a name is read -/

/-- A dollar sign begins a name outside comments and names, inside a literal or not, where names
are interpolated and no backslash stands before it. -/
theorem turn_eq_nameStart_iff
    {state : State} {ch : Char} {text : Text} :
    state.turn ch text = .nameStart ↔
      ch = '$' ∧
        state.session.comment.isOpen = false ∧
          state.session.interpolation.form = none ∧
            state.session.interpolation.allowed = true ∧
              state.frame.previous ≠ some '\\' := by
  constructor
  · intro turnShape
    have notOfStatement : state.frame.statement.turn ch ≠ .nameStart := by
      unfold Statement.turn
      repeat' split
      all_goals simp
    unfold State.turn Interpolation.isOpen at turnShape
    dsimp only at turnShape
    repeat' split at turnShape
    all_goals simp_all
  · rintro ⟨rfl, commentClosed, noName, allowed, notEscaped⟩
    have notSlash : commentAt? ('$' :: text) = none := commentAt?_of_ne_slash (by decide) text
    unfold State.turn
    simp [commentClosed, noName, Interpolation.isOpen, allowed, notEscaped, isWhitespace,
      CharRole.of, notSlash]

/-- The state in which the end of the text, or else the next character, has ended the name that it
cannot belong to. -/
def settledHere (state : State) : State :=
  match state.session.rest with
  | [] =>
      state.settleEnd
  | ch :: _ =>
      state.settle ch

/-- Where no name is being read, the end of the text ends none. -/
theorem settleEnd_of_noName
    {state : State}
    (noName : state.session.interpolation.form = none) :
    state.settleEnd = state := by
  unfold settleEnd
  rw [noName]

/-- Where no name is being read, the next character ends none. -/
theorem settledHere_of_noName
    {state : State}
    (noName : state.session.interpolation.form = none) :
    state.settledHere = state := by
  unfold settledHere
  split
  · exact settleEnd_of_noName noName
  · exact settle_of_noName noName

/-- The next character leaves a name as it is, or ends it. -/
theorem settle_eq_or_form_settle
    (state : State) (ch : Char) :
    state.settle ch = state ∨ (state.settle ch).session.interpolation.form = none := by
  unfold settle
  split
  · exact .inl rfl
  · split
    · exact .inl rfl
    · split
      · exact .inr rfl
      · exact .inl rfl
    · split
      · exact .inr rfl
      · exact .inl rfl

/-- A settled state is settled. -/
theorem settle_settle
    (state : State) (ch : Char) :
    (state.settle ch).settle ch = state.settle ch := by
  rcases settle_eq_or_form_settle state ch with same | noName
  · rw [same, same]
  · exact settle_of_noName noName

/-- A state goes on as the settled state does. -/
theorem step_settledHere
    (closures : Closures) (state : State) :
    state.settledHere.step closures = state.step closures := by
  unfold settledHere
  split
  · next atEnd =>
      have settledTwice : state.settleEnd.settleEnd = state.settleEnd :=
        settleEnd_of_noName (form_settleEnd state)
      unfold step finish
      rw [rest_settleEnd, atEnd, settledTwice]
  · next ch rest text =>
      unfold step
      rw [rest_settle, text]
      unfold advance
      dsimp only
      rw [settle_settle]

/-- The reading of a name, from a state in it to the first state in which no name is read any
more. -/
inductive ReadsName (closures : Closures) : State → State → Prop where
  /-- The name has ended, or is ended here. -/
  | ended {state : State}
      (noName : state.settledHere.session.interpolation.isOpen = false) :
      ReadsName closures state state.settledHere
  /-- A further part of the name is read. -/
  | part {state next last : State}
      (inName : state.settledHere.session.interpolation.isOpen = true)
      (steps : Steps closures state next)
      (later : ReadsName closures next last) :
      ReadsName closures state last

/-- Where no name is read, a name has been read. -/
theorem ReadsName.of_noName
    (closures : Closures) {state : State}
    (noName : state.session.interpolation.form = none) :
    ReadsName closures state state := by
  have noNameHere : state.settledHere.session.interpolation.isOpen = false := by
    rw [settledHere_of_noName noName]
    unfold Interpolation.isOpen
    rw [noName]
    rfl
  have ended : ReadsName closures state state.settledHere := .ended noNameHere
  rw [settledHere_of_noName noName] at ended
  exact ended

/-- There is one state in which a name has been read. -/
theorem ReadsName.unique
    {closures : Closures} {state last other : State}
    (reads : ReadsName closures state last)
    (readsOther : ReadsName closures state other) :
    last = other := by
  induction reads with
  | ended noName =>
      cases readsOther with
      | ended _ =>
          rfl
      | part inName _ _ =>
          rw [noName] at inName
          contradiction
  | part inName steps _ inductionHypothesis =>
      cases readsOther with
      | ended noName =>
          rw [noName] at inName
          contradiction
      | part _ stepsOther later =>
          have sameNext : Progress.running _ = Progress.running _ := steps.symm.trans stepsOther
          cases sameNext
          exact inductionHypothesis later

/-- What is read after a name is what the reading goes on to. -/
theorem ReadsName.joins
    {closures : Closures} {state last : State}
    (reads : ReadsName closures state last) :
    Joins closures state last := by
  induction reads with
  | @ended state _ =>
      exact ⟨state, .refl, (step_settledHere closures state).symm⟩
  | part _ steps _ inductionHypothesis =>
      exact (Reaches.joins (Relation.ReflTransGen.single steps)).trans inductionHypothesis

/-! ## What is read of a name -/

/-- What the reading of a name leaves as it is, and the piece that it adds to the statement. -/
structure Splices (before after : State) (piece : Text) : Prop where
  part : after.frame.statement.part = before.frame.statement.part ++ piece
  key : after.frame.statement.key = before.frame.statement.key
  inKey : after.frame.statement.inKey = before.frame.statement.inKey
  mode : after.frame.mode = before.frame.mode
  entries : after.frame.entries = before.frame.entries
  quote : after.session.quote = before.session.quote
  comment : after.session.comment = before.session.comment
  table : after.session.journal.table = before.session.journal.table
  outer : after.outer = before.outer
  noName : after.session.interpolation.form = none

/-- A name that has been read to its end is spliced. -/
theorem splices_spliceName
    (state : State) :
    state.Splices state.spliceName
      (state.session.journal.table.standIn state.session.interpolation.name
        state.session.interpolation.written true) := by
  unfold spliceName Journal.resolve Variables.standIn
  dsimp only
  cases found : state.session.journal.table.get? state.session.interpolation.name with
  | none =>
      exact ⟨Statement.part_append _ _, rfl, rfl, rfl, rfl, rfl, rfl, rfl, rfl, rfl⟩
  | some value =>
      exact ⟨Statement.part_append _ _, rfl, rfl, rfl, rfl, rfl, rfl, rfl, rfl, rfl⟩

/-- A name that is given up is left as it is written. -/
theorem splices_restoreName
    (state : State) :
    state.Splices state.restoreName state.session.interpolation.writtenSoFar :=
  ⟨Statement.part_append _ _, rfl, rfl, rfl, rfl, rfl, rfl, rfl, rfl, rfl⟩

/-- The characters of a name are read, whatever comes after them. -/
theorem readsName_inName
    (closures : Closures) (state : State) (form : NameForm)
    (commentClosed : state.session.comment.isOpen = false)
    (following name before : Text) (previous : Option Char)
    (inside : ∀ ch ∈ name, form.endsAt ch = false) :
    ∃ last,
      ∀ {finished},
        ReadsName closures (state.inName form following (before ++ name) last) finished →
          ReadsName closures (state.inName form (name ++ following) before previous) finished := by
  induction name generalizing before previous with
  | nil =>
      refine ⟨previous, ?_⟩
      intro finished reads
      rw [List.append_nil] at reads
      exact reads
  | cons ch name inductionHypothesis =>
      have goesOn := inside ch List.mem_cons_self
      have steps := steps_namePart closures form commentClosed goesOn (name ++ following) before
        previous
      obtain ⟨last, later⟩ :=
        inductionHypothesis (before ++ [ch]) (if form = .braced then previous else some ch)
          fun other member => inside other (List.mem_cons_of_mem ch member)
      refine ⟨last, ?_⟩
      intro finished reads
      rw [List.append_cons] at reads
      have settled :
          (state.inName form (ch :: name ++ following) before previous).settledHere =
            state.inName form (ch :: name ++ following) before previous :=
        settle_inName goesOn _ _ _
      refine .part ?_ steps (later reads)
      rw [settled]
      rfl

/-! ## The end of a name -/

/-- A name without braces is spliced by the end of the text, or by the character that ends it. -/
theorem settledHere_bareName
    {state : State} {following : Text}
    (commentClosed : state.session.comment.isOpen = false)
    (ends : ∀ ch, following.head? = some ch → endsBareName ch = true)
    (name : Text) (previous : Option Char) :
    (state.inName .bare following name previous).settledHere =
      (state.inName .bare following name previous).spliceName := by
  cases following with
  | nil =>
      rfl
  | cons ch rest =>
      exact settle_bareName commentClosed rfl (ends ch rfl)

/-- A name whose closing brace is missing is given up at the end of the line, or of the text. -/
theorem settledHere_cutOffName
    {state : State} {following : Text}
    (commentClosed : state.session.comment.isOpen = false)
    (ends : following = [] ∨ following.head? = some '\n')
    (name : Text) (previous : Option Char) :
    (state.inName .braced following name previous).settledHere =
      (state.inName .braced following name previous).restoreName := by
  rcases ends with rfl | isLineEnd
  · rfl
  · obtain ⟨rest, rfl⟩ := List.head?_eq_some_iff.mp isLineEnd
    have inComment : (state.inName .braced ('\n' :: rest) name previous).session.comment.isOpen =
        false :=
      commentClosed
    change (state.inName .braced ('\n' :: rest) name previous).settle '\n' = _
    unfold settle
    rw [inComment]
    rfl

/-- The closing brace of a name splices it. -/
theorem steps_closedName
    (closures : Closures) {state : State}
    (commentClosed : state.session.comment.isOpen = false)
    (name rest : Text) (previous : Option Char) :
    Steps closures (state.inName .braced ('}' :: rest) name previous)
      (((state.inName .braced ('}' :: rest) name previous).spliceName.withRest rest).withPrevious
        (some '}')) := by
  have turnShape : (state.inName .braced ('}' :: rest) name previous).turn '}' rest = .nameEnd :=
    turn_eq_nameEnd commentClosed rfl
  exact steps_of_turn rfl (settle_bracedName rfl (by decide)) turnShape rfl

/-! ## References -/

/-- The reading of a reference from its dollar sign: the state in which its name is begun, and the
first one in which no name is read any more. -/
structure ReadsReference
    (closures : Closures)
    (state opened last : State)
    (name written : Text)
    (complete : Bool) : Prop where
  begins : Steps closures state opened
  isOpen : opened.session.interpolation.isOpen = true
  reads : ReadsName closures opened last
  unique : ∀ other, ReadsName closures opened other → other = last
  /-- What has been read is the reference as it is written. -/
  text : state.session.rest = written ++ last.session.rest
  reference : Reference name written complete last.session.rest
  splices :
    state.Splices last (state.session.journal.table.standIn name written complete)
  /-- What ends a name without being part of the reference is read as if no name had been there. -/
  goesOn : Joins closures state last

/-- What a name leaves, from its first part on, it leaves from its beginning on. -/
theorem Splices.of_inName
    {state after : State} {form : NameForm} {rest name piece : Text} {previous : Option Char}
    (splices : ((state.withLineStart false).inName form rest name previous).Splices after piece) :
    state.Splices after piece :=
  ⟨splices.part, splices.key, splices.inKey, splices.mode, splices.entries, splices.quote,
    splices.comment, splices.table, splices.outer, splices.noName⟩

/-- Taking a character that belongs to no statement changes nothing that a name leaves. -/
theorem Splices.passing
    {before after : State} {piece : Text}
    (splices : before.Splices after piece)
    (rest : Text) (previous : Option Char) :
    before.Splices ((after.withRest rest).withPrevious previous) piece :=
  ⟨splices.part, splices.key, splices.inKey, splices.mode, splices.entries, splices.quote,
    splices.comment, splices.table, splices.outer, splices.noName⟩

/-- After a reference no name is being read. -/
theorem Splices.isOpen_eq
    {before after : State} {piece : Text}
    (splices : before.Splices after piece) :
    after.session.interpolation.isOpen = false := by
  unfold Interpolation.isOpen
  rw [splices.noName]
  rfl

/-- Inside a name a name is being read. -/
theorem isOpen_inName
    (state : State) (form : NameForm) (rest name : Text) (previous : Option Char) :
    (state.inName form rest name previous).session.interpolation.isOpen = true :=
  rfl

/-- A reference is read when its name is begun, and its characters lead to where it ends. -/
theorem exists_readsReference
    {closures : Closures} {state : State} {form : NameForm} {name following written : Text}
    {complete : Bool}
    (begins :
      Steps closures state
        ((state.withLineStart false).inName form (name ++ following) [] state.frame.previous))
    (commentClosed : state.session.comment.isOpen = false)
    (inside : ∀ ch ∈ name, form.endsAt ch = false)
    (finishes :
      ∀ previous,
        ∃ last,
          ReadsName closures ((state.withLineStart false).inName form following name previous)
              last ∧
            state.session.rest = written ++ last.session.rest ∧
              Reference name written complete last.session.rest ∧
                ((state.withLineStart false).inName form following name previous).Splices last
                  (state.session.journal.table.standIn name written complete)) :
    ∃ opened last, ReadsReference closures state opened last name written complete := by
  obtain ⟨previous, later⟩ :=
    readsName_inName closures (state.withLineStart false) form commentClosed following name []
      state.frame.previous inside
  obtain ⟨last, ends, text, reference, splices⟩ := finishes previous
  have reads := later ends
  have goesOn := (Reaches.joins (Relation.ReflTransGen.single begins)).trans reads.joins
  exact
    ⟨_, last, begins, isOpen_inName _ _ _ _ _, reads,
      fun other readsOther => readsOther.unique reads, text, reference, splices.of_inName, goesOn⟩

/-- A name in braces is read as a reference. -/
theorem exists_readsReference_braced
    (closures : Closures) {state : State} {name rest : Text}
    (left : state.session.rest = '$' :: '{' :: (name ++ '}' :: rest))
    (starts : state.turn '$' ('{' :: (name ++ '}' :: rest)) = .nameStart)
    (inside : ∀ ch ∈ name, NameForm.braced.endsAt ch = false) :
    ∃ opened last,
      ReadsReference closures state opened last name ('$' :: '{' :: name ++ ['}']) true := by
  have commentClosed : (state.withLineStart false).session.comment.isOpen = false :=
    (turn_eq_nameStart_iff.mp starts).2.1
  have begins := steps_nameStart closures left starts .braced (.inl ⟨rfl, rfl⟩)
  refine exists_readsReference begins commentClosed inside ?_
  intro previous
  let named := (state.withLineStart false).inName .braced ('}' :: rest) name previous
  have settled : named.settledHere = named := settle_bracedName rfl (by decide)
  have isOpen : named.settledHere.session.interpolation.isOpen = true := by
    rw [settled]
    rfl
  have steps :
      Steps closures named ((named.spliceName.withRest rest).withPrevious (some '}')) :=
    steps_closedName closures commentClosed name rest previous
  have spliced := splices_spliceName named
  rw [name_inName, written_inName] at spliced
  have closed := spliced.passing rest (some '}')
  have reads := ReadsName.part isOpen steps (.of_noName closures closed.noName)
  refine ⟨_, reads, ?_, ?_, closed⟩
  · rw [left]
    simp [withPrevious, withRest]
  · exact .braced (fun ch member => NameForm.endsAt_braced_eq_false_iff.mp (inside ch member)) rest

/-- A name whose closing brace is missing on its line is read as a reference. -/
theorem exists_readsReference_cutOff
    (closures : Closures) {state : State} {name following : Text}
    (left : state.session.rest = '$' :: '{' :: (name ++ following))
    (starts : state.turn '$' ('{' :: (name ++ following)) = .nameStart)
    (inside : ∀ ch ∈ name, NameForm.braced.endsAt ch = false)
    (ends : following = [] ∨ following.head? = some '\n') :
    ∃ opened last,
      ReadsReference closures state opened last name ('$' :: '{' :: name) false := by
  have commentClosed : (state.withLineStart false).session.comment.isOpen = false :=
    (turn_eq_nameStart_iff.mp starts).2.1
  have begins := steps_nameStart closures left starts .braced (.inl ⟨rfl, rfl⟩)
  refine exists_readsReference begins commentClosed inside ?_
  intro previous
  let named := (state.withLineStart false).inName .braced following name previous
  have settled : named.settledHere = named.restoreName :=
    settledHere_cutOffName commentClosed ends name previous
  have writtenShape : named.session.interpolation.writtenSoFar = '$' :: '{' :: name := by
    unfold Interpolation.writtenSoFar
    rw [name_inName]
    rfl
  have restored := splices_restoreName named
  rw [writtenShape] at restored
  have reads : ReadsName closures named named.settledHere :=
    .ended (by rw [settled]; exact restored.isOpen_eq)
  rw [settled] at reads
  refine ⟨_, reads, left, ?_, restored⟩
  exact .cutOff (fun ch member => NameForm.endsAt_braced_eq_false_iff.mp (inside ch member)) ends

/-- A name without braces is read as a reference. -/
theorem exists_readsReference_bare
    (closures : Closures) {state : State} {name following : Text}
    (left : state.session.rest = '$' :: (name ++ following))
    (starts : state.turn '$' (name ++ following) = .nameStart)
    (noBrace : (name ++ following).head? ≠ some '{')
    (inside : ∀ ch ∈ name, endsBareName ch = false)
    (ends : ∀ ch, following.head? = some ch → endsBareName ch = true) :
    ∃ opened last,
      ReadsReference closures state opened last name ('$' :: name) true := by
  have commentClosed : (state.withLineStart false).session.comment.isOpen = false :=
    (turn_eq_nameStart_iff.mp starts).2.1
  have begins := steps_nameStart closures left starts .bare (.inr ⟨rfl, rfl, noBrace⟩)
  refine exists_readsReference begins commentClosed inside ?_
  intro previous
  let named := (state.withLineStart false).inName .bare following name previous
  have settled : named.settledHere = named.spliceName :=
    settledHere_bareName commentClosed ends name previous
  have spliced := splices_spliceName named
  have reads : ReadsName closures named named.settledHere :=
    .ended (by rw [settled]; exact spliced.isOpen_eq)
  rw [settled] at reads
  rw [name_inName, written_inName] at spliced
  exact ⟨_, reads, left, .bare noBrace inside ends, spliced⟩

/-- A dollar sign that begins a name begins a reference, which is read to its end: at the first
closing brace, or before the first line end, for a name in braces, and before the first character
that ends it for a name without braces.  What stands in the statement for it is all that is
changed. -/
theorem reads_reference
    (closures : Closures) {state : State} {text : Text}
    (left : state.session.rest = '$' :: text)
    (starts : (state.settle '$').turn '$' text = .nameStart) :
    ∃ opened last name written complete,
      ReadsReference closures state opened last name written complete := by
  rw [settle_dollar] at starts
  by_cases isBraced : ∃ body, text = '{' :: body
  · obtain ⟨body, rfl⟩ := isBraced
    obtain ⟨name, following, rfl, inside, ends⟩ := NameForm.braced.exists_name body
    rcases following with _ | ⟨ch, rest⟩
    · obtain ⟨opened, last, reads⟩ :=
        exists_readsReference_cutOff closures left starts inside (.inl rfl)
      exact ⟨opened, last, name, _, false, reads⟩
    · have endsHere : ch = '}' ∨ ch = '\n' := by
        have endsAtHere := ends ch rfl
        simpa [NameForm.endsAt] using endsAtHere
      rcases endsHere with rfl | rfl
      · obtain ⟨opened, last, reads⟩ := exists_readsReference_braced closures left starts inside
        exact ⟨opened, last, name, _, true, reads⟩
      · obtain ⟨opened, last, reads⟩ :=
          exists_readsReference_cutOff closures left starts inside (.inr rfl)
        exact ⟨opened, last, name, _, false, reads⟩
  · obtain ⟨name, following, rfl, inside, ends⟩ := NameForm.bare.exists_name text
    have noBrace : (name ++ following).head? ≠ some '{' := by
      rintro isBrace
      obtain ⟨body, shape⟩ := List.head?_eq_some_iff.mp isBrace
      exact isBraced ⟨body, shape⟩
    obtain ⟨opened, last, reads⟩ :=
      exists_readsReference_bare closures left starts noBrace inside ends
    exact ⟨opened, last, name, _, true, reads⟩

/-- The beginning of a literal that holds a reference to a variable with a dollar sign in its
name. -/
def beforeReference : State :=
  let text := ['$', '{', 'a', '$', 'b', '}', '\'']
  let table : Variables := ⟨[(['a', '$', 'b'], .text ['1'])]⟩
  (start (.ofText text false ⟨table, []⟩) {} true).withQuote ⟨true, some '\''⟩

/-- The reading of the beginning of a name, for a name with a dollar sign in it. -/
theorem reads_reference_dollarInName :
    beforeReference.session.rest = '$' :: ['{', 'a', '$', 'b', '}', '\''] ∧
      (beforeReference.settle '$').turn '$' ['{', 'a', '$', 'b', '}', '\''] = .nameStart ∧
        ∃ opened last name written complete,
          ReadsReference .standard beforeReference opened last name written complete := by
  have left : beforeReference.session.rest = '$' :: ['{', 'a', '$', 'b', '}', '\''] := rfl
  have starts :
      (beforeReference.settle '$').turn '$' ['{', 'a', '$', 'b', '}', '\''] = .nameStart := by
    decide +kernel
  exact ⟨left, starts, reads_reference .standard left starts⟩

end State

end GradleScript
