import GradleScript.Proofs.Repositories.Bodies
import GradleScript.Proofs.Repositories.Syntax
import GradleScript.Proofs.Script.Ending

namespace GradleScript

/-!
# Reading blocks of repositories

The directives of a block of repositories are read one after another, each into the entries of one
mapping, and the repositories are made of these when the block ends.  So there is one for each
directive as long as no two directives have the same key, and one less for each that repeats a key.
-/

namespace State

/-! ## Calls that are kept -/

/-- A call that no body follows is kept as a key without a value. -/
theorem readCall_of_keptCall
    {state : State} {word : Text}
    (part : state.frame.statement.part = word)
    (notIf : word ≠ ifWord)
    (keeps : state.frame.mode.keepCalls = true)
    (rest : Text) :
    state.readCall ('(' :: ')' :: '\n' :: rest) =
      ((state.withRest ('\n' :: rest)).recordText (word ++ ['(', ')']) []).withStatement {} := by
  have encloses : parentheses.Encloses ['(', ')'] :=
    Brackets.encloses_of_after rfl rfl rfl ['x'] (by decide) (by decide +kernel)
  have after : parentheses.after ('(' :: ')' :: '\n' :: rest) = '\n' :: rest :=
    encloses.exact ('\n' :: rest)
  have taken : parentheses.taken ('(' :: ')' :: '\n' :: rest) = ['(', ')'] :=
    taken_of_encloses encloses (fun _ opens => isWhitespace_of_parentheses opens) ('\n' :: rest)
  have noSpaces : dropSpaces ('\n' :: rest) = '\n' :: rest :=
    List.dropWhile_cons_of_neg (by decide)
  have notCondition : ¬(word == ifWord) = true := by simpa using notIf
  unfold readCall keepCall
  rw [part, if_neg notCondition, if_pos keeps, after, taken, noSpaces]
  rfl

/-- Where keys without a value are kept, nothing is recorded as an empty text. -/
theorem recordText_nil
    {state : State} {key : Text}
    (notEmpty : key ≠ [])
    (keeps : state.frame.mode.keepEmpty = true) :
    state.recordText key [] = state.record key (.text []) := by
  have stripped : strip [] = [] := rfl
  unfold recordText
  rw [stripped, keeps]
  simp only [List.isEmpty_iff, notEmpty, Bool.not_true, Bool.and_false, Bool.or_false]
  rfl

/-- A call without arguments is recorded under its key. -/
theorem AtLine.readsLine_keptCall
    (closures : Closures) {state : State} {word rest : Text}
    (atLine : state.AtLine)
    (keeps : state.frame.mode = Repositories.directiveMode)
    (text : state.session.rest = word ++ '(' :: ')' :: '\n' :: rest)
    (others : ∀ ch ∈ word, CharRole.of ch = .other)
    (notIf : word ≠ ifWord) :
    ReadsLine closures state ('\n' :: rest)
      (state.stored.record (word ++ ['(', ')']) (.text [])) := by
  obtain ⟨inPart, reaches, calm, place, statement, same⟩ :=
    atLine.reaches_part closures text others
  have inKey : inPart.frame.statement.inKey = true := by
    rw [statement]
    rfl
  have part : (inPart.withLineStart false).frame.statement.part = word := by
    have parts : inPart.frame.statement.part = word := by
      rw [statement]
      exact part_append_empty word
    exact parts
  have mode : inPart.frame.mode = Repositories.directiveMode :=
    (congrArg (fun body => body.frame.mode) (same [])).trans keeps
  have call := calm.steps_call closures place inKey
  rw [readCall_of_keptCall part notIf (congrArg Mode.keepCalls mode)] at call
  let kept := (inPart.withLineStart false).withRest ('\n' :: rest)
  have keptCalm : kept.Calm := ⟨calm.comment, calm.name, calm.quote⟩
  have recordedCalm : (kept.recordText (word ++ ['(', ')']) []).Calm :=
    keptCalm.of_contexts (contexts_recordText kept _ [])
  have passed := congrArg State.stored (same [])
  have sameStored : kept.stored = state.stored := passed
  have keepsEmpty : state.stored.frame.mode.keepEmpty = true := congrArg Mode.keepEmpty keeps
  have recorded :
      (kept.recordText (word ++ ['(', ')']) []).stored =
        state.stored.record (word ++ ['(', ')']) (.text []) := by
    rw [stored_recordText, sameStored]
    exact recordText_nil (by simp) keepsEmpty
  exact
    ⟨_, reaches.tail call, ⟨recordedCalm.name, recordedCalm.quote, .inl recordedCalm.comment⟩,
      rest_recordText kept _ [], (stored_flush_of_fresh rfl rfl).trans recorded⟩

/-! ## The block around the directives -/

/-- A script that waits for the end of its block of repositories. -/
def waitingForRepositories : Suspended :=
  ⟨{}, .closure Closures.repositoriesKey true⟩

/-- A script that begins with the block of repositories comes to the first directive. -/
theorem exists_reaches_directives
    (rest : Text) (restricted : Bool) (journal : Journal) :
    ∃ next,
      Reaches Closures.standard
          (State.start
            (Session.ofText (Closures.repositoriesKey ++ ' ' :: '{' :: '\n' :: rest) restricted
              journal) {} true)
          next ∧
        next.AtLine ∧ next.session.rest = rest ∧
          next.Collects Repositories.directiveMode [waitingForRepositories] [] := by
  let text := Closures.repositoriesKey ++ ' ' :: '{' :: '\n' :: rest
  let first := State.start (Session.ofText text restricted journal) {} true
  have atLine : first.AtLine := ⟨⟨rfl, rfl, rfl⟩, rfl, rfl⟩
  have place : first.session.rest = Closures.repositoriesKey ++ [' '] ++ '{' :: '\n' :: rest := rfl
  obtain ⟨last, _, afterKey⟩ :=
    atLine.reaches_key Closures.standard place (by decide) (by decide) (by decide) (by decide)
      (by simp)
  let opened :=
    ((first.inLine ('\n' :: rest) {} none).withLineStart true).suspend
      (.closure Closures.repositoriesKey true) Repositories.directiveMode
  have opens :
      Steps Closures.standard
        (first.inLine ('{' :: '\n' :: rest) ⟨Closures.repositoriesKey, [], false⟩ last) opened :=
    (atLine.calm.inLine _ _ _).steps rfl
      (atLine.calm.turn_openBlock rfl ('\n' :: rest) last) rfl
  have openedCalm : opened.Calm := ⟨rfl, rfl, rfl⟩
  have lineEnd := openedCalm.steps_lineEnd Closures.standard rfl rfl
  exact
    ⟨_, (afterKey.tail opens).tail lineEnd, ⟨⟨rfl, rfl, rfl⟩, rfl, rfl⟩, rfl, ⟨rfl, rfl, rfl⟩⟩

/-- The brace at the end of the script ends the block of repositories. -/
theorem Collects.mapping_run
    {state : State} {entries : Mapping}
    (collects : state.Collects Repositories.directiveMode [waitingForRepositories] entries)
    (atLine : state.AtLine)
    (text : state.session.rest = ['}'])
    (waits : state.Waits)
    (whole : state.wholeScript = true) :
    (state.run Closures.standard).2 =
      [(Closures.repositoriesKey, .list (repositoriesOf entries))] := by
  have ran : outcome (state.run Closures.standard) = outcome state.unwind :=
    atLine.calm.outcome_run Closures.standard atLine.statement waits whole (.brace .nil)
      (text ▸ List.suffix_cons '\n' ['}'])
  calc
    (state.run Closures.standard).2 = state.unwind.2 :=
      congrArg Prod.fst ran
    _ = waitingForRepositories.entriesAfter state.frame.entries :=
      entries_unwind_of_outline collects.around
    _ = [(Closures.repositoriesKey, .list (repositoriesOf entries))] := by
      rw [collects.entries]
      rfl

end State

namespace Repositories

open State

variable {text : Text} {restricted : Bool} {journal : Journal}

/-! ## Directives -/

section Directive

variable {state : State} {entries : Mapping} {rest : Text}

/-- A call is read to the next line, and kept. -/
theorem exists_reaches_call
    (name : Plain.BlockKey)
    (atLine : state.AtLine)
    (collects : state.Collects directiveMode [waitingForRepositories] entries)
    (place : state.session.rest = (Directive.call name).text ++ '\n' :: rest) :
    ∃ next,
      Reaches Closures.standard state next ∧ next.AtLine ∧ next.session.rest = rest ∧
        next.Collects directiveMode [waitingForRepositories]
          ((Directive.call name).meaning entries) := by
  have notIf : name.word ≠ ifWord := by
    intro isIf
    have notKeyword := name.notKeyword
    rw [isIf] at notKeyword
    revert notKeyword
    decide
  have text : state.session.rest = name.word ++ '(' :: ')' :: '\n' :: rest := by
    rw [place, Directive.text, List.append_assoc]
    rfl
  have reads :=
    atLine.readsLine_keptCall Closures.standard collects.mode text
      (fun ch member => (name.solid ch member).other) notIf
  exact collects.readsLines_record reads.lineEnd

/-- A name with a literal is read to the next line, and the literal is recorded. -/
theorem exists_reaches_value
    (name : Plain.BlockKey)
    (literal : Plain.Literal)
    (noDollar : '$' ∉ literal.body)
    (atLine : state.AtLine)
    (collects : state.Collects directiveMode [waitingForRepositories] entries)
    (place : state.session.rest = name.word ++ ' ' :: literal.text ++ '\n' :: rest) :
    ∃ next,
      Reaches Closures.standard state next ∧ next.AtLine ∧ next.session.rest = rest ∧
        next.Collects directiveMode [waitingForRepositories]
          (entries.add name.word (.ofScalar literal.body)) := by
  have text :
      state.session.rest =
        name.word ++ [' '] ++ (literal.mark :: literal.body ++ literal.mark :: '\n' :: rest) := by
    rw [place]
    simp [Plain.Literal.text]
  obtain ⟨last, notEscaped, afterKey⟩ :=
    atLine.reaches_key Closures.standard text name.notEmpty
      (fun ch member => (name.solid ch member).other) name.notKeyword (by simp) (by simp)
  have dollars : ∀ ch ∈ literal.body, state.DollarIsPlain ch := by
    rintro ch member rfl
    exact (noDollar member).elim
  have reads :=
    atLine.calm.readsLine_literal Closures.standard name.notEmpty literal.isMark literal.notEmpty
      literal.oneLine literal.unbroken literal.notEscaping dollars ('\n' :: rest) notEscaped
  exact collects.readsLines_record (reads.after afterKey).lineEnd

/-- A block is read to the next line, and merged with what its body denotes on its own. -/
theorem exists_reaches_block
    (name : Plain.BlockKey)
    (body : Body)
    (unread : NamesUnread text restricted)
    (enters :
      Reaches Closures.standard (State.start (Session.ofText text restricted journal) {} true)
        state)
    (atLine : state.AtLine)
    (collects : state.Collects directiveMode [waitingForRepositories] entries)
    (place : state.session.rest = (Directive.block name body).text ++ '\n' :: rest) :
    ∃ next,
      Reaches Closures.standard state next ∧ next.AtLine ∧ next.session.rest = rest ∧
        next.Collects directiveMode [waitingForRepositories]
          ((Directive.block name body).meaning entries) := by
  obtain ⟨last, reading⟩ := body.isBody
  have text :
      state.session.rest =
        name.word ++ ' ' :: '{' :: '\n' :: (Script.closedBody body.text ++ '\n' :: rest) := by
    rw [place, Directive.text, List.append_assoc]
    rfl
  have inText : Script.closedBody body.text <:+: state.session.rest :=
    ⟨name.word ++ [' ', '{', '\n'], '\n' :: rest, by simp [text]⟩
  have unreadAlone : NamesUnread (Script.closedBody body.text) true :=
    unread.of_infix (inText.trans enters.rest_suffix.isInfix)
  have ordinary : Closures.standard.find? name.word = none := by
    rw [Closures.find?_standard, if_neg name.notRepositories]
  exact
    ReadsBody.exists_reaches_afterBlock reading Closures.find?_standard_ne_array unreadAlone unread
      enters atLine collects name.toKey ordinary text

/-- A directive is read to the next line, and what it means is recorded. -/
theorem Directive.exists_reaches
    (directive : Directive)
    (unread : NamesUnread text restricted)
    (enters :
      Reaches Closures.standard (State.start (Session.ofText text restricted journal) {} true)
        state)
    (atLine : state.AtLine)
    (collects : state.Collects directiveMode [waitingForRepositories] entries)
    (place : state.session.rest = directive.text ++ '\n' :: rest) :
    ∃ next,
      Reaches Closures.standard state next ∧ next.AtLine ∧ next.session.rest = rest ∧
        next.Collects directiveMode [waitingForRepositories] (directive.meaning entries) := by
  cases directive with
  | call name =>
      exact exists_reaches_call name atLine collects place
  | value name literal noDollar notFalse =>
      exact exists_reaches_value name literal noDollar atLine collects place
  | block name body =>
      exact exists_reaches_block name body unread enters atLine collects place

end Directive

/-- Directives are read one after another, each to the end of its last line. -/
theorem exists_reaches_afterDirectives
    (unread : NamesUnread text restricted)
    (directives : List Directive)
    {state : State} {entries : Mapping} {rest : Text}
    (enters :
      Reaches Closures.standard (State.start (Session.ofText text restricted journal) {} true)
        state)
    (atLine : state.AtLine)
    (collects : state.Collects directiveMode [waitingForRepositories] entries)
    (place : state.session.rest = directivesText directives ++ rest) :
    ∃ last,
      Reaches Closures.standard state last ∧ last.AtLine ∧ last.session.rest = rest ∧
        last.Collects directiveMode [waitingForRepositories]
          (directivesMeaning entries directives) := by
  induction directives generalizing state entries with
  | nil =>
      exact ⟨state, .refl, atLine, place, collects⟩
  | cons directive directives inductionHypothesis =>
      have first :
          state.session.rest = directive.text ++ '\n' :: (directivesText directives ++ rest) := by
        rw [place]
        simp [directivesText]
      obtain ⟨next, reaches, nextAtLine, nextText, nextCollects⟩ :=
        directive.exists_reaches unread enters atLine collects first
      obtain ⟨last, later, properties⟩ :=
        inductionHypothesis (enters.trans reaches) nextAtLine nextCollects nextText
      exact ⟨last, reaches.trans later, properties⟩

/-! ## Scripts -/

/-- A block of repositories denotes the repositories of what its directives mean together. -/
theorem parse_directives
    (directives : List Directive)
    (restricted : Bool)
    (journal : Journal)
    (unread : NamesUnread (blockText directives) restricted) :
    (Script.parse Closures.standard restricted journal (blockText directives)).1 =
      [(Closures.repositoriesKey, .list (repositoriesOf (directivesMeaning [] directives)))] := by
  have shape :
      blockText directives =
        Closures.repositoriesKey ++ ' ' :: '{' :: '\n' :: (directivesText directives ++ ['}']) := by
    simp [blockText]
  let first := State.start (Session.ofText (blockText directives) restricted journal) {} true
  obtain ⟨inside, opens, insideAtLine, insideText, noneYet⟩ :=
    exists_reaches_directives (directivesText directives ++ ['}']) restricted journal
  rw [← shape] at opens
  obtain ⟨last, reads, lastAtLine, brace, collects⟩ :=
    exists_reaches_afterDirectives unread directives opens insideAtLine noneYet insideText
  have reaches : Reaches Closures.standard first last := opens.trans reads
  have waits : last.Waits := reaches.waits fun _ member => nomatch member
  calc
    (first.run Closures.standard).2 = (last.run Closures.standard).2 := by
      rw [reaches.run_eq]
    _ = [(Closures.repositoriesKey, .list (repositoriesOf (directivesMeaning [] directives)))] :=
      collects.mapping_run lastAtLine brace waits reaches.wholeScript_eq

/-- A block of repositories denotes the repositories that its directives stand for, in their order,
exactly when no two directives have the same key; it always has as many as there are keys.  What the
directives say holds no name that is read. -/
theorem parse_repositories
    (directives : List Directive)
    (restricted : Bool)
    (journal : Journal)
    (unread : NamesUnread (blockText directives) restricted) :
    ∃ repositories,
      (Script.parse Closures.standard restricted journal (blockText directives)).1 =
          [(Closures.repositoriesKey, .list repositories)] ∧
        repositories.length = (directives.map Directive.key).dedup.length ∧
        (repositories = directives.map Directive.repository ↔
          (directives.map Directive.key).Nodup) :=
  ⟨repositoriesOf (directivesMeaning [] directives),
    parse_directives directives restricted journal unread,
    (List.length_map _).trans (length_directivesMeaning directives),
    repositoriesOf_directivesMeaning directives⟩

/-- The text of a body with a comment that holds a brace, and with a call. -/
def commentedText : Text :=
  "url 'a/b' // \x7d\nallow()".toList

/-- The body is read up to the brace behind it, and not to the one in its comment. -/
theorem readsBody_commentedText :
    ReadsBody Closures.standard (bodyStart commentedText)
      (readOn Closures.standard 21 (bodyStart commentedText)) :=
  .of_closing (reaches_readOn Closures.standard 21 (bodyStart commentedText)) rfl
    (by decide +kernel) (by decide +kernel) (List.isEmpty_iff.mp (by decide +kernel))

/-- The comment leaves no entry in the mapping of the body. -/
theorem bodyMapping_commentedText :
    bodyMapping commentedText =
      [("url".toList, .text "a/b".toList), ("allow()".toList, .text [])] :=
  readsBody_commentedText.entries_run.trans (by decide +kernel)

/-- Each of the three forms comes to the repository that it stands for. -/
theorem parse_repositories_threeForms :
    ∃ directives : List Directive,
      blockText directives =
          ("repositories \x7b\ngoogle()\nflatDir 'libs'\n" ++
            "maven \x7b\nurl 'a/b' // \x7d\nallow()\n\x7d\n\x7d").toList ∧
        NamesUnread (blockText directives) false ∧
        (Script.parse Closures.standard false {} (blockText directives)).1 =
          [(Closures.repositoriesKey,
            .list [
              .repository "unknown".toList [("name".toList, .text "google".toList)],
              .repository "flatDir".toList [("value".toList, .text "libs".toList)],
              .repository "maven".toList
                [("url".toList, .text "a/b".toList), ("allow()".toList, .text [])]])] := by
  let body : Body :=
    ⟨commentedText, ⟨_, readsBody_commentedText⟩,
      bodyMapping_commentedText ▸ List.cons_ne_nil _ _⟩
  let directives : List Directive := [
    .call ⟨⟨"google".toList, by decide, by decide, by decide⟩, by decide⟩,
    .value ⟨⟨"flatDir".toList, by decide, by decide, by decide⟩, by decide⟩
      ⟨'\'', "libs".toList, rfl, by decide, by decide, by decide, by decide⟩ (by decide)
      (by decide),
    .block ⟨⟨"maven".toList, by decide, by decide, by decide⟩, by decide⟩ body]
  have unread : NamesUnread (blockText directives) false := .inl (by decide)
  have distinct : (directives.map Directive.key).Nodup := by decide
  obtain ⟨repositories, parsed, _, same⟩ := parse_repositories directives false {} unread
  refine ⟨directives, by decide, unread, ?_⟩
  rw [parsed, same.mpr distinct, ← bodyMapping_commentedText]
  rfl

/-- Of two calls of one name, one repository comes, and it is neither of the two. -/
theorem parse_repositories_repeatedCall :
    ∃ directives : List Directive,
      blockText directives = "repositories \x7b\nmavenCentral()\nmavenCentral()\n\x7d".toList ∧
        directives.map Directive.repository =
          [.repository "unknown".toList [("name".toList, .text "mavenCentral".toList)],
            .repository "unknown".toList [("name".toList, .text "mavenCentral".toList)]] ∧
        (Script.parse Closures.standard false {} (blockText directives)).1 =
          [(Closures.repositoriesKey,
            .list [.repository "mavenCentral".toList
              [("value".toList, .list [.text [], .text []])]])] := by
  let call : Directive :=
    .call ⟨⟨"mavenCentral".toList, by decide, by decide, by decide⟩, by decide⟩
  have unread : NamesUnread (blockText [call, call]) false := .inl (by decide)
  refine ⟨[call, call], by decide, rfl, ?_⟩
  rw [parse_directives [call, call] false {} unread]
  decide

end Repositories

end GradleScript
