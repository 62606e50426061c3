import GradleScript.Block.Store
import GradleScript.Scan.Conditional
import GradleScript.Scan.Declaration

namespace GradleScript

/-!
# Reading one construct

At every place of a text the contexts decide what the next character is read as: its turn.  The
order of the cases in `State.turn` is the precedence of the contexts.  A turn consumes at least one
character, and sometimes a whole construct.
-/

/-- What the next character is read as. -/
inductive Turn where
  /-- A part of a comment. -/
  | comment
  /-- A part of the name of an interpolation. -/
  | namePart
  /-- The brace that closes an interpolation. -/
  | nameEnd
  /-- The end of a line, and of the statement on it. -/
  | lineEnd
  /-- A separator before the first word of a line. -/
  | indentation
  /-- The first character of a comment. -/
  | commentStart (kind : CommentKind)
  /-- The dollar sign of an interpolation. -/
  | nameStart
  /-- A quote, or a part of a quoted literal. -/
  | quoted
  /-- The argument list of a call, or the condition of a conditional. -/
  | call
  /-- The first bracket of an array literal. -/
  | array
  | blockStart
  | blockEnd
  /-- A delimiter after, or before, a key. -/
  | keyEnd
  /-- A character of a key or of a value. -/
  | plain
  deriving Repr, DecidableEq

/-- What a turn leads to. -/
inductive Progress where
  | running (state : State)
  /-- The outermost body is finished, with what it denotes. -/
  | closed (session : Session) (entries : Mapping)

/-- What a character that no context takes is read as in a statement. -/
def Statement.turn (statement : Statement) (ch : Char) : Turn :=
  if statement.inKey && ch == '(' then
    .call
  else if !statement.inKey && statement.isFresh && ch == '[' then
    .array
  else if ch == '{' then
    .blockStart
  else if ch == '}' then
    .blockEnd
  else if statement.inKey && isDelimiter ch then
    .keyEnd
  else
    .plain

namespace State

/-- End an interpolation whose name is complete: its text becomes part of the statement. -/
def spliceName (state : State) : State :=
  let interpolation := state.session.interpolation
  let (text, journal) := state.session.journal.resolve interpolation.name interpolation.written
  ((state.withJournal journal).append text).withInterpolation interpolation.closed

/-- Give up an interpolation without its closing brace: the statement keeps it as it was
written. -/
def restoreName (state : State) : State :=
  let interpolation := state.session.interpolation
  (state.append interpolation.writtenSoFar).withInterpolation interpolation.closed

/-- End the interpolation that the next character cannot belong to. -/
def settle (state : State) (ch : Char) : State :=
  if state.session.comment.isOpen then
    state
  else
    match state.session.interpolation.form with
    | none =>
        state
    | some .braced =>
        if ch == '\n' then state.restoreName else state
    | some .bare =>
        if endsBareName ch then state.spliceName else state

/-- What the next character is read as, when all contexts it ends have been settled. -/
def turn (state : State) (ch : Char) (rest : Text) : Turn :=
  let session := state.session
  if session.comment.isOpen then
    .comment
  else if session.interpolation.isOpen then
    if session.interpolation.isBraced && ch == '}' then .nameEnd else .namePart
  else if ch == '\n' then
    .lineEnd
  else if state.frame.lineStart && isWhitespace ch then
    .indentation
  else
    match if session.quote.isOpen then none else commentAt? (ch :: rest) with
    | some kind =>
        .commentStart kind
    | none =>
        if ch == '$' && session.interpolation.allowed && state.frame.previous != some '\\' then
          .nameStart
        else if session.quote.isOpen || isQuote ch then
          .quoted
        else
          state.frame.statement.turn ch

/-- Read a part of a comment. -/
def readComment (state : State) (ch : Char) (rest : Text) : State :=
  let (ended, comment) := state.session.comment.hear [ch]
  let heard := (state.withRest rest).withComment comment
  if ended then heard.withLineStart true else heard

/-- Read a part of the name of an interpolation. -/
def readNamePart (state : State) (ch : Char) (rest : Text) : State :=
  let named := (state.withRest rest).withInterpolation (state.session.interpolation.extend [ch])
  if state.session.interpolation.isBraced then named else named.withPrevious (some ch)

/-- Read the dollar sign of an interpolation, and the brace that may follow it. -/
def readNameStart (state : State) (rest : Text) : State :=
  let interpolation := state.session.interpolation
  match rest with
  | '{' :: name =>
      (state.withRest name).withInterpolation (interpolation.opened .braced)
  | name =>
      (state.withRest name).withInterpolation (interpolation.opened .bare)

/-- Read a part of a quoted literal. -/
def readQuoted (state : State) (ch : Char) (rest : Text) : State :=
  (((state.withRest rest).withQuote
    (state.session.quote.next ch state.frame.previous)).append [ch]).withPrevious (some ch)

/-- Keep a call as a key.  It ends its statement unless a body follows. -/
def keepCall (state : State) (text : Text) : State :=
  let key := state.frame.statement.part ++ parentheses.taken text
  let remaining := dropSpaces (parentheses.after text)
  let passed := state.withRest remaining
  if remaining.head? == some '{' then
    passed.withStatement ⟨key, [], false⟩
  else
    (passed.recordText key []).withStatement {}

/-- Read a parenthesis after a key: skip a conditional or a call, or keep the call. -/
def readCall (state : State) (text : Text) : State :=
  if state.frame.statement.part == ifWord then
    (state.withRest (afterConditional text)).withStatement {}
  else if state.frame.mode.keepCalls then
    state.keepCall text
  else
    (state.withRest (parentheses.after text)).withStatement {}

/-- Read an array literal as the value of the current key. -/
def readArrayValue (state : State) (text : Text) : State :=
  let (items, remaining) := readArray text
  let stored := (state.withRest remaining).record state.frame.statement.key
    (.list (items.map Value.text))
  stored.withStatement { state.frame.statement with key := [] }

/-- Start to read a nested body. -/
def suspend (state : State) (opening : Opening) (mode : Mode) : State :=
  { state with
    frame := { mode := mode }
    outer := ⟨state.frame, opening⟩ :: state.outer }

/-- Read the brace that opens a block, and the start of its body. -/
def openBlock (closures : Closures) (state : State) (rest : Text) : State :=
  let statement := state.frame.statement
  let key := if statement.key.isEmpty then strip statement.part else statement.key
  let waiting := (((state.withRest rest).withStatement {}).withLineStart true).withPrevious none
  match closures.find? key with
  | some .array =>
      let (items, remaining) := readArray rest
      (waiting.withRest remaining).storeClosure key (.list (items.map Value.text))
  | some .repositories =>
      waiting.suspend (.closure key true) { keepCalls := true, keepEmpty := true }
  | some (.body mode) =>
      waiting.suspend (.closure key false) mode
  | none =>
      let interpolation := state.session.interpolation
      let opened := waiting.suspend (.block key interpolation.inDependencies) state.frame.mode
      opened.withInterpolation
        { interpolation with
          inDependencies := interpolation.inDependencies || key == dependenciesKey }

/-- Read the brace that closes a block.  Outside every block of a whole script it is reported and
ignored. -/
def closeBlock (state : State) (rest : Text) : Progress :=
  let ended := (state.withRest rest).flush
  match ended.outer with
  | suspended :: outer =>
      .running (ended.resume suspended outer)
  | [] =>
      if ended.wholeScript then
        .running (ended.withJournal
          (ended.session.journal.report (.strayBlockEnd ended.session.position)))
      else
        .closed ended.session ended.frame.entries

/-- Dispatch a complete key: skip a conditional, read a declaration, or go on to the value. -/
def dispatchKey (state : State) : State :=
  let word := state.frame.statement.part
  if isDeclarationWord word then
    let (name, remaining) := readDeclaration state.session.rest
    if name.isEmpty then
      (state.withRest remaining).withStatement {}
    else
      (state.withRest remaining).withStatement ⟨name, [], false⟩
  else if word == ifWord then
    (state.withRest (afterConditional state.session.rest)).withStatement {}
  else
    state.withStatement ⟨word, [], false⟩

/-- Read a delimiter in front of a key or after it. -/
def readKeyEnd (state : State) (ch : Char) (rest : Text) : State :=
  let passed := (state.withRest rest).withPrevious (some ch)
  if state.frame.statement.isFresh then passed else passed.dispatchKey

/-- Read a character of a key or of a value; separators in front of it are dropped. -/
def readPlain (state : State) (ch : Char) (rest : Text) : State :=
  let passed := (state.withRest rest).withPrevious (some ch)
  if state.frame.statement.isFresh && (isDelimiter ch || ch == '\r') then
    passed
  else
    passed.append [ch]

/-- Read the end of a line. -/
def readLineEnd (state : State) (ch : Char) (rest : Text) : State :=
  (((((state.withRest rest).flush).withQuote Quote.closed).withLineStart true).withPrevious
    (some ch))

/-- Read the two characters that start a comment; the statement before it ends. -/
def readCommentStart (state : State) (kind : CommentKind) (rest : Text) : State :=
  ((state.flush).withRest (rest.drop 1)).withComment (Comment.opened kind)

/-- Take the turn of the next character. -/
def take (closures : Closures) (state : State) (ch : Char) (rest : Text) : Turn → Progress
  | .comment =>
      .running (state.readComment ch rest)
  | .namePart =>
      .running (state.readNamePart ch rest)
  | .nameEnd =>
      .running ((state.spliceName.withRest rest).withPrevious (some ch))
  | .lineEnd =>
      .running (state.readLineEnd ch rest)
  | .indentation =>
      .running (state.withRest rest)
  | .commentStart kind =>
      .running ((state.withLineStart false).readCommentStart kind rest)
  | .nameStart =>
      .running ((state.withLineStart false).readNameStart rest)
  | .quoted =>
      .running ((state.withLineStart false).readQuoted ch rest)
  | .call =>
      .running (((state.withLineStart false).readCall (ch :: rest)).withPrevious none)
  | .array =>
      .running (((state.withLineStart false).readArrayValue (ch :: rest)).withPrevious none)
  | .blockStart =>
      .running (openBlock closures (state.withLineStart false) rest)
  | .blockEnd =>
      (state.withLineStart false).closeBlock rest
  | .keyEnd =>
      .running ((state.withLineStart false).readKeyEnd ch rest)
  | .plain =>
      .running ((state.withLineStart false).readPlain ch rest)

/-- Read one construct, whose first character is given. -/
def advance (closures : Closures) (state : State) (ch : Char) (rest : Text) : Progress :=
  let settled := state.settle ch
  settled.take closures ch rest (settled.turn ch rest)

end State

end GradleScript
