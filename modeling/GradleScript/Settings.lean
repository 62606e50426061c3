import GradleScript.Value.Mapping
import GradleScript.Text.UpperCase

namespace GradleScript

/-!
# Settings

A run is configured by three settings, which come from named values or from the environment.  Every
setting is checked, so that all that is wrong is reported at once.
-/

/-- How log records are written. -/
inductive LogFormat where
  | console
  | json
  deriving Repr, DecidableEq

/-- The settings of a run. -/
structure Settings where
  /-- Interpolate names only inside `dependencies` blocks. -/
  evalDependenciesOnly : Bool := true
  /-- The name of the log level, in upper case; not necessarily that of a level. -/
  logLevel : Text := "WARNING".toList
  logFormat : LogFormat := .console
  deriving Repr, DecidableEq

/-- What is wrong with the value of a setting. -/
inductive SettingFault where
  /-- A text, or a number of 64 bits, that is no truth value. -/
  | notTruthWord
  /-- A value that cannot be a truth value: of another kind, or too large a number. -/
  | notBoolean
  | notText
  | notFormat
  deriving Repr, DecidableEq

/-- The kind of a fault, as a word. -/
def SettingFault.kind : SettingFault → String
  | .notTruthWord => "bool_parsing"
  | .notBoolean => "bool_type"
  | .notText => "string_type"
  | .notFormat => "literal_error"

/-- The text of a fault. -/
def SettingFault.message : SettingFault → String
  | .notTruthWord => "Input should be a valid boolean, unable to interpret input"
  | .notBoolean => "Input should be a valid boolean"
  | .notText => "Input should be a valid string"
  | .notFormat => "Input should be 'console' or 'json'"

/-- A fault and the name of the setting that has it. -/
structure SettingError where
  setting : Text
  fault : SettingFault
  deriving Repr, DecidableEq

namespace Settings

/-- The name of the setting that keeps interpolation to `dependencies` blocks. -/
def evalName : Text :=
  "eval_dependencies_only".toList

/-- The name of the setting for the log level. -/
def levelName : Text :=
  "log_level".toList

/-- The name of the setting for the log format. -/
def formatName : Text :=
  "log_format".toList

/-- The words for true. -/
def trueWords : List Text :=
  ["1".toList, "on".toList, "t".toList, "true".toList, "y".toList, "yes".toList]

/-- The words for false. -/
def falseWords : List Text :=
  ["0".toList, "off".toList, "f".toList, "false".toList, "n".toList, "no".toList]

/-- The truth value of a setting. -/
def truth : Value → Except SettingFault Bool
  | .boolean flag =>
      .ok flag
  | .integer number =>
      if number == 1 then
        .ok true
      else if number == 0 then
        .ok false
      else if Value.fitsWord number then
        .error .notTruthWord
      else
        .error .notBoolean
  | .text word =>
      if trueWords.contains (lowerAscii word) then
        .ok true
      else if falseWords.contains (lowerAscii word) then
        .ok false
      else
        .error .notTruthWord
  | _ =>
      .error .notBoolean

/-- The name of a log level, trimmed and in upper case. -/
def level : Value → Except SettingFault Text
  | .text word =>
      .ok (upper (strip word))
  | _ =>
      .error .notText

/-- The log format of a name, whatever its case.  Only ASCII letters have a lower case among the
letters of the two names. -/
def format : Value → Except SettingFault LogFormat
  | .text word =>
      let name := lowerAscii (strip word)
      if name == "console".toList then
        .ok .console
      else if name == "json".toList then
        .ok .json
      else
        .error .notFormat
  | _ =>
      .error .notFormat

/-- Check one setting: its value or the default, and what is wrong with it. -/
def check
    (entries : Mapping)
    (name : Text)
    (reading : Value → Except SettingFault α)
    (fallback : α) :
    α × List SettingError :=
  match entries.get? name with
  | none =>
      (fallback, [])
  | some value =>
      match reading value with
      | .ok result => (result, [])
      | .error fault => (fallback, [⟨name, fault⟩])

/-- The settings that named values give; names of no setting are ignored. -/
def ofValues (entries : Mapping) : Except (List SettingError) Settings :=
  let defaults : Settings := {}
  let (restricted, truthErrors) := check entries evalName truth defaults.evalDependenciesOnly
  let (logLevel, levelErrors) := check entries levelName level defaults.logLevel
  let (logFormat, formatErrors) := check entries formatName format defaults.logFormat
  match truthErrors ++ levelErrors ++ formatErrors with
  | [] =>
      .ok ⟨restricted, logLevel, logFormat⟩
  | errors =>
      .error errors

/-- What the environment calls a setting. -/
def environmentName (name : Text) : Text :=
  "GRADLE_TO_JSON_".toList ++ upper name

/-- The values that the environment gives to settings. -/
def environmentValues (environment : List (Text × Text)) : Mapping :=
  [evalName, levelName, formatName].filterMap fun name =>
    (environment.find? fun entry => entry.1 == environmentName name).map fun entry =>
      (name, Value.text entry.2)

/-- The settings that the environment gives. -/
def ofEnvironment (environment : List (Text × Text)) : Except (List SettingError) Settings :=
  ofValues (environmentValues environment)

end Settings

end GradleScript
