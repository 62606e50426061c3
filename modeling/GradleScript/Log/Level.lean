import GradleScript.Text.Basic

namespace GradleScript.Log

/-!
# Log levels

A record is written when its level is at least as severe as the level that is set up.  Some levels
have two names.
-/

/-- A log level. -/
inductive Level where
  | notSet
  | debug
  | info
  | warning
  | error
  | critical
  deriving Repr, DecidableEq

namespace Level

/-- How severe a level is. -/
def severity : Level → Nat
  | .notSet => 0
  | .debug => 10
  | .info => 20
  | .warning => 30
  | .error => 40
  | .critical => 50

/-- The name of a level. -/
def name : Level → Text
  | .notSet => "NOTSET".toList
  | .debug => "DEBUG".toList
  | .info => "INFO".toList
  | .warning => "WARNING".toList
  | .error => "ERROR".toList
  | .critical => "CRITICAL".toList

/-- The level of a name in upper case, if there is one. -/
def ofName? (word : Text) : Option Level :=
  if word == "WARN".toList then
    some .warning
  else if word == "FATAL".toList then
    some .critical
  else
    [Level.notSet, .debug, .info, .warning, .error, .critical].find? fun level =>
      level.name == word

/-- The name of a level as it stands in a record. -/
def label (level : Level) : Text :=
  lowerAscii level.name

end Level

end GradleScript.Log
