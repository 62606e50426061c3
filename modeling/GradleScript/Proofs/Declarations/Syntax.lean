import GradleScript.Proofs.Block.Splicing
import GradleScript.Proofs.Plain.Syntax

namespace GradleScript.Declarations

/-!
# Files that declare and use names

The blocks of extra properties of a project declare names, each in one of its files.  The main file
has one block of dependencies, whose entries refer to names in quoted texts.  This module gives such
files as trees, how they are written, and what the dependencies mean when the declarations are
known, wherever they stand.
-/

open Plain

/-! ## Declarations -/

/-- A word that can be referred to. -/
structure Identifier where
  word : Text
  chars : ∀ ch ∈ word, isReferenceChar ch = true
  notEmpty : word ≠ []

/-- An identifier that is no keyword. -/
structure Name extends Identifier where
  notKeyword : isKeyword word = false

/-- A name as a key. -/
def Name.key (name : Name) : Key where
  word := name.word
  chars := by
    intro ch member
    have isReference := name.chars ch member
    unfold isReferenceChar at isReference
    unfold isKeyChar
    rw [isReference]
    rfl
  notEmpty := name.notEmpty
  notKeyword := name.notKeyword

/-- The declaration of a name: its quoted text, which may hold anything but quotes. -/
structure Declaration where
  indent : Gap
  name : Name
  before : Gap
  after : Gap
  value : Text
  notEmpty : value ≠ []
  oneLine : '\n' ∉ value
  noQuote : ∀ ch ∈ value, isQuote ch = false
  notEscaping : value.getLast? ≠ some '\\'

namespace Declaration

/-- The literal of a declaration. -/
def literal (declaration : Declaration) : Literal where
  mark := '\''
  body := declaration.value
  isMark := by decide
  notEmpty := declaration.notEmpty
  oneLine := declaration.oneLine
  unbroken := by
    intro member
    have noQuote := declaration.noQuote '\'' member
    contradiction
  notEscaping := declaration.notEscaping

/-- A declaration as a line. -/
def line (declaration : Declaration) : Line :=
  .assignment declaration.indent
    ⟨declaration.name.key, .equals declaration.before declaration.after,
      .quoted declaration.literal⟩

end Declaration

/-- A line of a block of extra properties. -/
inductive ExtLine where
  | filler (filler : Filler)
  | declaration (declaration : Declaration)

namespace ExtLine

def line : ExtLine → Line
  | .filler idle =>
      .filler idle
  | .declaration item =>
      item.line

/-- The name that a line declares, with its text. -/
def declared : ExtLine → List (Text × Text)
  | .filler _ =>
      []
  | .declaration item =>
      [(item.name.word, item.value)]

end ExtLine

/-- The key of the blocks of extra properties. -/
def extKey : BlockKey where
  word := "ext".toList
  chars := by decide
  notEmpty := by decide
  notKeyword := by decide
  notRepositories := by decide

/-- A block of extra properties. -/
structure ExtBlock where
  indent : Gap
  gap : Gap
  lines : List ExtLine
  closing : Gap

namespace ExtBlock

def line (block : ExtBlock) : Line :=
  .block block.indent extKey block.gap (block.lines.map ExtLine.line) block.closing

/-- The names that a block declares, with their texts. -/
def declared (block : ExtBlock) : List (Text × Text) :=
  block.lines.flatMap ExtLine.declared

end ExtBlock

/-- A part of a file that is a block of extra properties, or says nothing. -/
inductive Section where
  | filler (filler : Filler)
  | ext (block : ExtBlock)

namespace Section

def line : Section → Line
  | .filler idle =>
      .filler idle
  | .ext block =>
      block.line

def declared : Section → List (Text × Text)
  | .filler _ =>
      []
  | .ext block =>
      block.declared

end Section

/-! ## Dependencies -/

/-- A piece of the quoted text of an entry. -/
inductive Piece where
  | literal
      (text : Text)
      (oneLine : '\n' ∉ text)
      (noQuote : '"' ∉ text)
      (noDollar : '$' ∉ text)
      (noBackslash : '\\' ∉ text)
  | reference (form : NameForm) (name : Identifier)

namespace Piece

/-- A piece as it is written. -/
def written : Piece → Text
  | .literal text _ _ _ _ =>
      text
  | .reference form name =>
      State.writtenName form name.word

/-- A piece with its reference replaced, if its name is declared. -/
def resolved (declared : List (Text × Text)) : Piece → Text
  | .literal text _ _ _ _ =>
      text
  | .reference form name =>
      (declared.lookup name.word).getD (State.writtenName form name.word)

/-- The name that a piece refers to. -/
def referenced : Piece → List Text
  | .literal _ _ _ _ _ =>
      []
  | .reference _ name =>
      [name.word]

end Piece

/-- Pieces as they are written. -/
def writtenPieces (pieces : List Piece) : Text :=
  pieces.flatMap Piece.written

/-- Pieces with the references to declared names replaced. -/
def resolvedPieces (declared : List (Text × Text)) (pieces : List Piece) : Text :=
  pieces.flatMap (Piece.resolved declared)

/-- Whether every bare reference is followed by a character that ends its name, if only by the
closing quote. -/
def areTerminated : List Piece → Bool
  | [] =>
      true
  | .reference .bare _ :: pieces =>
      (writtenPieces pieces ++ ['"']).head?.any endsBareName && areTerminated pieces
  | _ :: pieces =>
      areTerminated pieces

/-- An entry of the dependencies: a configuration with a quoted text. -/
structure Entry where
  indent : Gap
  conf : Name
  gap : Gap
  gapNotEmpty : gap.text ≠ []
  pieces : List Piece
  notEmpty : writtenPieces pieces ≠ []
  terminated : areTerminated pieces = true

namespace Entry

/-- An entry as it is written. -/
def text (entry : Entry) : Text :=
  entry.indent.text ++ entry.conf.word ++ entry.gap.text ++
    '"' :: writtenPieces entry.pieces ++ ['"']

end Entry

/-- A line of the dependencies. -/
inductive DependencyLine where
  | filler (filler : Filler)
  | entry (entry : Entry)

namespace DependencyLine

def text : DependencyLine → Text
  | .filler idle =>
      idle.text
  | .entry item =>
      item.text

/-- What a line makes of the entries before it when the declarations are known. -/
def meaning (declared : List (Text × Text)) (entries : Mapping) : DependencyLine → Mapping
  | .filler _ =>
      entries
  | .entry item =>
      entries.add item.conf.word (.ofScalar (resolvedPieces declared item.pieces))

/-- The configuration of a line. -/
def confs : DependencyLine → List Text
  | .filler _ =>
      []
  | .entry item =>
      [item.conf.word]

/-- The names that a line refers to. -/
def referenced : DependencyLine → List Text
  | .filler _ =>
      []
  | .entry item =>
      item.pieces.flatMap Piece.referenced

end DependencyLine

/-- The lines of the dependencies as they are written, each with its line end. -/
def dependencyLinesText (lines : List DependencyLine) : Text :=
  lines.flatMap fun line => line.text ++ ['\n']

/-- The block of the dependencies. -/
structure Dependencies where
  indent : Gap
  gap : Gap
  lines : List DependencyLine
  closing : Gap

namespace Dependencies

/-- The block as it is written. -/
def text (block : Dependencies) : Text :=
  block.indent.text ++ dependenciesKey ++ block.gap.text ++
    '{' :: '\n' :: dependencyLinesText block.lines ++ block.closing.text ++ ['}']

/-- What the dependencies mean when the declarations are known: the texts of each configuration are
collected, in the order of the lines. -/
def meaning (block : Dependencies) (declared : List (Text × Text)) : Mapping :=
  block.lines.foldl (DependencyLine.meaning declared) []

/-- The configurations of the block. -/
def confs (block : Dependencies) : List Text :=
  block.lines.flatMap DependencyLine.confs

/-- The names that the block refers to. -/
def referenced (block : Dependencies) : List Text :=
  block.lines.flatMap DependencyLine.referenced

end Dependencies

/-! ## Files -/

/-- The names that sections declare, with their texts. -/
def declaredBy (sections : List Section) : List (Text × Text) :=
  sections.flatMap Section.declared

/-- A root file: its sections, and a last one that no line end follows. -/
structure RootFile where
  sections : List Section
  last : Section

namespace RootFile

/-- A root file as it is written. -/
def text (file : RootFile) : Text :=
  linesText (file.sections.map Section.line) ++ file.last.line.text

def declared (file : RootFile) : List (Text × Text) :=
  declaredBy (file.sections ++ [file.last])

end RootFile

/-- A main file: the dependencies, with sections before and after them. -/
structure MainFile where
  before : List Section
  dependencies : Dependencies
  after : List Section

namespace MainFile

/-- A main file as it is written. -/
def text (file : MainFile) : Text :=
  linesText (file.before.map Section.line) ++ file.dependencies.text ++
    file.after.flatMap fun part => '\n' :: part.line.text

def declared (file : MainFile) : List (Text × Text) :=
  declaredBy (file.before ++ file.after)

end MainFile

end GradleScript.Declarations
