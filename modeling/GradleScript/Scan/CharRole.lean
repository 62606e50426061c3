namespace GradleScript

/-!
# The role of a character

A script is scanned character by character, and each character has one role.  Keys and values are
separated by more characters than words are: the equals sign separates them too.
-/

/-- What a character can be in a script. -/
inductive CharRole where
  | space
  | lineEnd
  | equalsSign
  | quote
  | openBrace
  | closeBrace
  | openBracket
  | closeBracket
  | openParenthesis
  | closeParenthesis
  | dollar
  | slash
  | other
  deriving Repr, DecidableEq

/-- The role of a character. -/
def CharRole.of : Char → CharRole
  | ' ' => .space
  | '\t' => .space
  | '\r' => .space
  | '\n' => .lineEnd
  | '=' => .equalsSign
  | '"' => .quote
  | '\'' => .quote
  | '{' => .openBrace
  | '}' => .closeBrace
  | '[' => .openBracket
  | ']' => .closeBracket
  | '(' => .openParenthesis
  | ')' => .closeParenthesis
  | '$' => .dollar
  | '/' => .slash
  | _ => .other

/-- Whether a character separates words without ending the line. -/
def isSpace (ch : Char) : Bool :=
  CharRole.of ch == .space

/-- Whether a character separates words or lines. -/
def isWhitespace (ch : Char) : Bool :=
  CharRole.of ch == .space || CharRole.of ch == .lineEnd

/-- Whether a character separates a key from its value. -/
def isDelimiter (ch : Char) : Bool :=
  ch == ' ' || ch == '\t' || ch == '='

/-- Whether a character opens or closes a quoted literal. -/
def isQuote (ch : Char) : Bool :=
  CharRole.of ch == .quote

end GradleScript
