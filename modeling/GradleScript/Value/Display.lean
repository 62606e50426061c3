import GradleScript.Text.Quoted
import GradleScript.Value.Mapping

namespace GradleScript

/-!
# Display

A value is shown with its structure and with quoted texts.  Where it is spliced into a text by
interpolation it is rendered instead: a text as it is, a list as its rendered items between commas,
a boolean as its word, and anything else as it is shown.
-/

/-- The decimal digits of an integer, after a minus sign when it is negative. -/
def decimal : Int → Text
  | .ofNat number =>
      Nat.toDigits 10 number
  | .negSucc number =>
      '-' :: Nat.toDigits 10 (number + 1)

namespace Value

mutual

/-- A value as it is shown inside another one. -/
def display : Value → Text
  | .null =>
      "None".toList
  | .boolean flag =>
      if flag then "True".toList else "False".toList
  | .integer number =>
      decimal number
  | .text content =>
      quoted content
  | .list items =>
      '[' :: joinWith ", ".toList (displayItems items) ++ [']']
  | .set [] =>
      "set()".toList
  | .set items =>
      '{' :: joinWith ", ".toList (displayItems items) ++ ['}']
  | .mapping entries =>
      '{' :: joinWith ", ".toList (displayEntries entries) ++ ['}']
  | .repository kind data =>
      "RepositoryEntry(type=".toList ++ quoted kind ++ ", data=".toList ++
        ('{' :: joinWith ", ".toList (displayEntries data) ++ ['}']) ++ [')']

/-- The items of a sequence as they are shown. -/
def displayItems : List Value → List Text
  | [] =>
      []
  | value :: rest =>
      display value :: displayItems rest

/-- The entries of a mapping as they are shown. -/
def displayEntries : List (Text × Value) → List Text
  | [] =>
      []
  | (key, value) :: rest =>
      (quoted key ++ ": ".toList ++ display value) :: displayEntries rest

end

mutual

/-- A value as it is spliced into a text. -/
def spliced : Value → Text
  | .boolean flag =>
      if flag then "true".toList else "false".toList
  | .text content =>
      content
  | .list items =>
      joinWith [','] (splicedItems items)
  | value =>
      display value

/-- The items of a list as they are spliced into a text. -/
def splicedItems : List Value → List Text
  | [] =>
      []
  | value :: rest =>
      spliced value :: splicedItems rest

end

end Value

end GradleScript
