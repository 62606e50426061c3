import GradleScript.Closure
import GradleScript.Scan.Comment
import GradleScript.Scan.Interpolation
import GradleScript.Scan.Quote
import GradleScript.Journal

namespace GradleScript

/-!
# The state of a block reader

A body is read character by character.  The session is what all bodies of a text share: the text
that is left, the lexical contexts, and the journal.  A frame is what belongs to one body.  While a
nested body is read, the frames around it are suspended, each knowing what the body is for.
-/

/-- The statement being read: its key, the characters of the current part, and which part it is. -/
structure Statement where
  key : Text := []
  /-- The characters of the current part, latest first. -/
  heard : Text := []
  inKey : Bool := true
  deriving Repr, DecidableEq

namespace Statement

/-- The current part as far as it has been read. -/
def part (statement : Statement) : Text :=
  statement.heard.reverse

/-- Whether nothing of the current part has been read. -/
def isFresh (statement : Statement) : Bool :=
  statement.heard.isEmpty

/-- Add characters to the current part. -/
def append (statement : Statement) (piece : Text) : Statement :=
  { statement with heard := piece.reverse ++ statement.heard }

/-- Added characters come at the end of the current part. -/
@[simp] theorem part_append (statement : Statement) (piece : Text) :
    (statement.append piece).part = statement.part ++ piece := by
  simp [part, append]

/-- A part of which nothing has been read is empty. -/
theorem isFresh_iff (statement : Statement) :
    statement.isFresh = true ↔ statement.part = [] := by
  simp [isFresh, part]

end Statement

/-- What belongs to the reading of one body. -/
structure Frame where
  mode : Mode := {}
  /-- What the statements read so far denote. -/
  entries : Mapping := []
  /-- The keys whose list is at the same time the value of the variable of that name. -/
  shared : List Text := []
  statement : Statement := {}
  /-- Whether only separators have been read since the line began. -/
  lineStart : Bool := true
  /-- The character read before, unless something else than a character was read. -/
  previous : Option Char := none

/-- What a nested body is read for. -/
inductive Opening where
  /-- A block under a key, which may be empty; whether the block stands in `dependencies`. -/
  | block (key : Text) (inDependencies : Bool)
  /-- The body of a closure; whether it denotes repositories. -/
  | closure (key : Text) (repositories : Bool)
  deriving Repr, DecidableEq

/-- A frame whose reading waits for the end of a nested body. -/
structure Suspended where
  frame : Frame
  opening : Opening

/-- What all bodies of one text share while they are read. -/
structure Session where
  /-- The number of characters of the whole text. -/
  size : Nat := 0
  rest : Text := []
  quote : Quote := {}
  comment : Comment := {}
  interpolation : Interpolation := {}
  journal : Journal := {}

namespace Session

/-- The session at the beginning of a text. -/
def ofText (text : Text) (restricted : Bool) (journal : Journal) : Session where
  size := text.length
  rest := text
  interpolation := { restricted := restricted }
  journal := journal

/-- The number of characters already read. -/
def position (session : Session) : Nat :=
  session.size - session.rest.length

end Session

/-- A body being read, with the bodies around it, innermost first. -/
structure State where
  session : Session
  frame : Frame
  outer : List Suspended := []
  /-- Whether the outermost body is a whole script, which no closing brace ends. -/
  wholeScript : Bool := false

namespace State

/-- The state at the beginning of a body. -/
def start (session : Session) (mode : Mode) (wholeScript : Bool) : State where
  session := session
  frame := { mode := mode }
  wholeScript := wholeScript

/-- Change the statement being read. -/
def withStatement (state : State) (statement : Statement) : State :=
  { state with frame := { state.frame with statement := statement } }

/-- Add characters to the current part of the statement. -/
def append (state : State) (piece : Text) : State :=
  state.withStatement (state.frame.statement.append piece)

/-- Change the text that is left. -/
def withRest (state : State) (rest : Text) : State :=
  { state with session := { state.session with rest := rest } }

/-- Change what counts as the character read before. -/
def withPrevious (state : State) (previous : Option Char) : State :=
  { state with frame := { state.frame with previous := previous } }

/-- Change whether the line has just begun. -/
def withLineStart (state : State) (lineStart : Bool) : State :=
  { state with frame := { state.frame with lineStart := lineStart } }

/-- Change the quote state. -/
def withQuote (state : State) (quote : Quote) : State :=
  { state with session := { state.session with quote := quote } }

/-- Change the comment state. -/
def withComment (state : State) (comment : Comment) : State :=
  { state with session := { state.session with comment := comment } }

/-- Change the interpolation state. -/
def withInterpolation (state : State) (interpolation : Interpolation) : State :=
  { state with session := { state.session with interpolation := interpolation } }

/-- Change the journal. -/
def withJournal (state : State) (journal : Journal) : State :=
  { state with session := { state.session with journal := journal } }

/-- Change the entries of the current body. -/
def withEntries (state : State) (entries : Mapping) : State :=
  { state with frame := { state.frame with entries := entries } }

end State

end GradleScript
