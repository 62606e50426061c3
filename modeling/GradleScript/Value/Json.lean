import GradleScript.Text.Quoted
import GradleScript.Value.Display

namespace GradleScript

/-!
# JSON

A value is written as JSON in ASCII: any other character is escaped by its UTF-16 units.  Objects
keep the order of their mapping, and a repository is an object with its kind and its data.  Without
an indentation everything stands on one line; with one, every item has a line of its own.
-/

/-- Why a value has no JSON form. -/
inductive JsonError where
  /-- A collection without an order has no JSON form. -/
  | unordered
  /-- The indentation does not fit into a word. -/
  | indentNoWord
  /-- No memory holds a line that is indented so far. -/
  | indentTooWide
  deriving Repr, DecidableEq

namespace JsonError

/-- The text of an error. -/
def message : JsonError → String
  | .unordered => "Object of type set is not JSON serializable"
  | .indentNoWord => "cannot fit 'int' into an index-sized integer"
  | .indentTooWide => ""

end JsonError

namespace Json

/-- The escape of one UTF-16 unit. -/
def unitEscape (unit : Nat) : Text :=
  '\\' :: 'u' :: hexDigits 4 unit

/-- A character as it stands in a JSON string. -/
def stringChar (ch : Char) : Text :=
  let code := ch.toNat
  if ch == '"' || ch == '\\' then
    ['\\', ch]
  else if ch == '\n' then
    ['\\', 'n']
  else if ch == '\r' then
    ['\\', 'r']
  else if ch == '\t' then
    ['\\', 't']
  else if code == 0x08 then
    ['\\', 'b']
  else if code == 0x0C then
    ['\\', 'f']
  else if 0x20 ≤ code && code < 0x7F then
    [ch]
  else if code < 0x10000 then
    unitEscape code
  else
    unitEscape (0xD800 + (code - 0x10000) / 0x400) ++
      unitEscape (0xDC00 + (code - 0x10000) % 0x400)

/-- A text as a JSON string. -/
def string (text : Text) : Text :=
  '"' :: text.flatMap stringChar ++ ['"']

/-- A line end followed by the indentation of a nesting level; nothing on one-line output. -/
def lineBreak (indent : Option Int) (level : Nat) : Text :=
  match indent with
  | none =>
      []
  | some width =>
      '\n' :: List.replicate (width.toNat * level) ' '

/-- What separates two items. -/
def separator (indent : Option Int) (level : Nat) : Text :=
  match indent with
  | none =>
      ", ".toList
  | some _ =>
      ',' :: lineBreak indent level

/-- A bracketed sequence of encoded items at a nesting level; empty brackets stay closed. -/
def bracketed
    (indent : Option Int)
    (level : Nat)
    (opening closing : Char)
    (items : List Text) :
    Text :=
  if items.isEmpty then
    [opening, closing]
  else
    opening :: lineBreak indent (level + 1) ++
      joinWith (separator indent (level + 1)) items ++ lineBreak indent level ++ [closing]

/-- A key and its encoded value. -/
def member (key encoded : Text) : Text :=
  string key ++ ": ".toList ++ encoded

end Json

namespace Value

mutual

/-- The JSON form of a value at a nesting level. -/
def toJsonAt (indent : Option Int) : Nat → Value → Except JsonError Text
  | _, .null =>
      .ok "null".toList
  | _, .boolean flag =>
      .ok (if flag then "true".toList else "false".toList)
  | _, .integer number =>
      .ok (decimal number)
  | _, .text content =>
      .ok (Json.string content)
  | level, .list items =>
      (jsonItems indent (level + 1) items).map (Json.bracketed indent level '[' ']')
  | _, .set _ =>
      .error .unordered
  | level, .mapping entries =>
      (jsonMembers indent (level + 1) entries).map (Json.bracketed indent level '{' '}')
  | level, .repository kind data =>
      (jsonMembers indent (level + 2) data).map fun members =>
        Json.bracketed indent level '{' '}'
          [Json.member "type".toList (Json.string kind),
            Json.member "data".toList (Json.bracketed indent (level + 1) '{' '}' members)]

/-- The JSON forms of the items of a list. -/
def jsonItems (indent : Option Int) : Nat → List Value → Except JsonError (List Text)
  | _, [] =>
      .ok []
  | level, value :: rest =>
      match toJsonAt indent level value, jsonItems indent level rest with
      | .ok encoded, .ok others =>
          .ok (encoded :: others)
      | .error error, _ =>
          .error error
      | _, .error error =>
          .error error

/-- The members of a JSON object. -/
def jsonMembers (indent : Option Int) : Nat → List (Text × Value) → Except JsonError (List Text)
  | _, [] =>
      .ok []
  | level, (key, value) :: rest =>
      match toJsonAt indent level value, jsonMembers indent level rest with
      | .ok encoded, .ok others =>
          .ok (Json.member key encoded :: others)
      | .error error, _ =>
          .error error
      | _, .error error =>
          .error error

end

/-- The widest indentation of one level for which there is memory. -/
def maxIndent : Int :=
  0x10000000000

/-- What is wrong with an indentation, if anything is. -/
def indentError? (width : Int) : Option JsonError :=
  if !fitsWord width then
    some .indentNoWord
  else if width > maxIndent then
    some .indentTooWide
  else
    none

/-- The JSON form of a value, on one line or indented by a number of spaces per level.  A text alone
has no use for an indentation, so that even a wrong one does no harm. -/
def toJson (value : Value) (indent : Option Int) : Except JsonError Text :=
  match value, indent.bind indentError? with
  | .text content, _ =>
      .ok (Json.string content)
  | _, some error =>
      .error error
  | _, none =>
      value.toJsonAt indent 0

end Value

end GradleScript
