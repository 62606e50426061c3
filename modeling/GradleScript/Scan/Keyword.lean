import GradleScript.Text.Basic

namespace GradleScript

/-!
# Keywords

A word becomes a keyword only when it has been read as a whole key: one word introduces a
conditional, and some introduce a declaration.
-/

/-- The word that introduces a conditional. -/
def ifWord : Text :=
  "if".toList

/-- The word that introduces the alternative of a conditional. -/
def elseWord : Text :=
  "else".toList

/-- The word that introduces an untyped declaration. -/
def defWord : Text :=
  "def".toList

/-- The type names that introduce a typed declaration. -/
def typeWords : List Text :=
  ["String".toList, "int".toList, "long".toList, "short".toList, "byte".toList, "char".toList,
    "float".toList, "double".toList, "boolean".toList, "Integer".toList, "Long".toList,
    "Float".toList, "Double".toList, "Boolean".toList, "Object".toList]

/-- Whether a word is the name of a type. -/
def isTypeWord (word : Text) : Bool :=
  typeWords.contains word

/-- Whether a word introduces a declaration. -/
def isDeclarationWord (word : Text) : Bool :=
  word == defWord || isTypeWord word

/-- Whether a word cannot be a plain key. -/
def isKeyword (word : Text) : Bool :=
  word == ifWord || isDeclarationWord word

end GradleScript
