import GradleScript.Closure
import GradleScript.Scan.Comment
import GradleScript.Scan.Keyword
import GradleScript.Value.ArrayLiteral
import GradleScript.Value.Mapping

namespace GradleScript.Plain

/-!
# Plain scripts

A plain script has one thing on a line: nothing, a comment, an assignment, or a block with the lines
of its body.  This module gives plain scripts as trees, how a tree is written, and the mapping that
it means: assignments collect the values of a repeated key, and a repeated block is merged.
-/

/-! ## Words and gaps -/

/-- Whether every character of a text has a property is decided along the text. -/
instance decidableForallMem
    (text : Text) (holds : Char → Prop) [DecidablePred holds] :
    Decidable (∀ ch ∈ text, holds ch) :=
  List.decidableBAll holds text

/-- Whether a character may stand in a key. -/
def isKeyChar (ch : Char) : Bool :=
  ch.isAlphanum || ch == '_' || ch == '.' || ch == '-'

/-- Whether a character may stand in a bare value. -/
def isWordChar (ch : Char) : Bool :=
  isKeyChar ch || ch == ':'

/-- Spaces and tabs, perhaps none. -/
structure Gap where
  text : Text
  blanks : ∀ ch ∈ text, ch = ' ' ∨ ch = '\t'

namespace Gap

/-- No separators. -/
def none : Gap where
  text := []
  blanks := by decide

/-- One space. -/
def space : Gap where
  text := [' ']
  blanks := by decide

/-- One tab. -/
def tab : Gap where
  text := ['\t']
  blanks := by decide

/-- A space is written with at least one character. -/
theorem text_space_ne_nil :
    space.text ≠ [] :=
  List.cons_ne_nil ' ' []

end Gap

/-- A key: a word that is no keyword. -/
structure Key where
  word : Text
  chars : ∀ ch ∈ word, isKeyChar ch = true
  notEmpty : word ≠ []
  notKeyword : isKeyword word = false

/-- The key of a block that is read in the ordinary way. -/
structure BlockKey extends Key where
  notRepositories : word ≠ Closures.repositoriesKey

/-! ## Operands -/

/-- A quoted literal: on one line, without its own quote inside, and without a backslash before the
closing one. -/
structure Literal where
  mark : Char
  body : Text
  isMark : isQuote mark = true
  notEmpty : body ≠ []
  oneLine : '\n' ∉ body
  unbroken : mark ∉ body
  notEscaping : body.getLast? ≠ some '\\'

namespace Literal

/-- A literal as it is written. -/
def text (literal : Literal) : Text :=
  literal.mark :: literal.body ++ [literal.mark]

end Literal

/-- A bare value. -/
structure Word where
  word : Text
  chars : ∀ ch ∈ word, isWordChar ch = true
  notEmpty : word ≠ []

/-- An item of an array, perhaps with blanks around it. -/
structure Item where
  before : Gap
  literal : Literal
  after : Gap
  noComma : ',' ∉ literal.body
  noBracket : ']' ∉ literal.body

namespace Item

/-- An item as it is written. -/
def text (item : Item) : Text :=
  item.before.text ++ item.literal.text ++ item.after.text

end Item

/-- What a key can be assigned. -/
inductive Operand where
  | quoted (literal : Literal)
  | bare (word : Word)
  | array (items : List Item)

namespace Operand

/-- An operand as it is written. -/
def text : Operand → Text
  | .quoted literal =>
      literal.text
  | .bare word =>
      word.word
  | .array items =>
      '[' :: joinWith [','] (items.map Item.text) ++ [']']

/-- What an operand means: a scalar, or the list of the texts of an array. -/
def value : Operand → Value
  | .quoted literal =>
      .ofScalar literal.body
  | .bare word =>
      .ofScalar word.word
  | .array items =>
      .list (items.map fun item => .text item.literal.body)

end Operand

/-! ## Assignments -/

/-- How a key is tied to its operand. -/
inductive Tie where
  /-- By blanks. -/
  | blanks (gap : Gap) (notEmpty : gap.text ≠ [])
  /-- By an equals sign. -/
  | equals (before after : Gap)
  /-- By an equals sign, after a word that declares the key. -/
  | declared
      (declaring : Text) (isDeclaring : isDeclarationWord declaring = true)
      (gap : Gap) (notEmpty : gap.text ≠ [])
      (before after : Gap)

/-- A key with its operand. -/
structure Assignment where
  key : Key
  tie : Tie
  operand : Operand

namespace Assignment

/-- An assignment as it is written. -/
def text (assignment : Assignment) : Text :=
  match assignment.tie with
  | .blanks gap _ =>
      assignment.key.word ++ gap.text ++ assignment.operand.text
  | .equals before after =>
      assignment.key.word ++ before.text ++ '=' :: after.text ++ assignment.operand.text
  | .declared declaring _ gap _ before after =>
      declaring ++ gap.text ++ assignment.key.word ++ before.text ++ '=' :: after.text ++
        assignment.operand.text

end Assignment

/-! ## Lines -/

/-- The content of a comment that ends with its line. -/
structure LineComment where
  content : Text
  oneLine : '\n' ∉ content

/-- The content of a comment that ends with its first end mark. -/
structure BlockComment where
  content : Text
  noEnd : ¬ ['*', '/'] <:+: content

/-- A line that says nothing. -/
inductive Filler where
  | blank (indent : Gap)
  | lineComment (indent : Gap) (comment : LineComment)
  | blockComment (indent : Gap) (comment : BlockComment)

/-- A filler as it is written. -/
def Filler.text : Filler → Text
  | .blank indent =>
      indent.text
  | .lineComment indent comment =>
      indent.text ++ '/' :: '/' :: comment.content
  | .blockComment indent comment =>
      indent.text ++ '/' :: '*' :: comment.content ++ ['*', '/']

/-- A line of a plain script; a block with its body counts as one. -/
inductive Line where
  | filler (filler : Filler)
  | assignment (indent : Gap) (assignment : Assignment)
  | block (indent : Gap) (key : BlockKey) (gap : Gap) (body : List Line) (closing : Gap)

mutual

/-- A line as it is written, without its line end. -/
def Line.text : Line → Text
  | .filler filler =>
      filler.text
  | .assignment indent assignment =>
      indent.text ++ assignment.text
  | .block indent key gap body closing =>
      indent.text ++ key.word ++ gap.text ++ '{' :: '\n' :: linesText body ++ closing.text ++ ['}']

/-- Lines as they are written, each with its line end. -/
def linesText : List Line → Text
  | [] =>
      []
  | line :: lines =>
      line.text ++ '\n' :: linesText lines

end

mutual

/-- What a line makes of the entries before it. -/
def Line.meaning (entries : Mapping) : Line → Mapping
  | .filler _ =>
      entries
  | .assignment _ assignment =>
      entries.add assignment.key.word assignment.operand.value
  | .block _ key _ body _ =>
      entries.put key.word
        (Mapping.mergeValue (entries.get? key.word) (.mapping (linesMeaning [] body)))

/-- What lines make of the entries before them. -/
def linesMeaning (entries : Mapping) : List Line → Mapping
  | [] =>
      entries
  | line :: lines =>
      linesMeaning (line.meaning entries) lines

end

/-- A plain script: its lines, and perhaps a last one that no line end follows. -/
structure Script where
  lines : List Line
  lastLine : Option Line := none

namespace Script

/-- A script as it is written. -/
def text (script : Script) : Text :=
  linesText script.lines ++ (script.lastLine.map Line.text).getD []

/-- The mapping that a script means. -/
def meaning (script : Script) : Mapping :=
  linesMeaning [] (script.lines ++ script.lastLine.toList)

end Script

end GradleScript.Plain
