import GradleScript.Log.Level
import GradleScript.Log.Record
import GradleScript.Settings
import GradleScript.Value.Json

namespace GradleScript.Log

/-!
# Writing log records

A record is written as one line.  On the console it has a time, a padded level and event, the
logger, and its fields in the order of their names; as JSON it is an object with its fields in the
order in which they were given, followed by the event, the level, the logger and the time.
-/

/-- The logger that parsing reports to. -/
def parserLogger : Text :=
  "gradle_to_json.parser".toList

/-- What is to be written, and how. -/
structure Writer where
  level : Level
  format : LogFormat
  deriving Repr, DecidableEq

/-- Why logging cannot be set up. -/
inductive SetupError where
  | settings (errors : List SettingError)
  | unknownLevel
  deriving Repr, DecidableEq

/-- The text of the error for an unknown level. -/
def SetupError.levelMessage : String :=
  "Unable to configure logger 'gradle_to_json'"

/-- A given text, unless it is missing or empty. -/
def given? : Option Text → Option Text
  | some (first :: rest) => some (first :: rest)
  | _ => none

/-- The format of a given name: any name but that of JSON is the console. -/
def formatOfName (name : Text) : LogFormat :=
  if lowerAscii name == "json".toList then
    .json
  else
    .console

/-- Set up logging.  The settings of the environment must be right even when a level and a format
are given; a level or format that is missing or empty comes from them. -/
def Writer.ofEnvironment
    (environment : List (Text × Text))
    (level format : Option Text) :
    Except SetupError Writer :=
  match Settings.ofEnvironment environment with
  | .error errors =>
      .error (.settings errors)
  | .ok settings =>
      let chosen := ((given? format).map formatOfName).getD settings.logFormat
      match Level.ofName? (upper ((given? level).getD settings.logLevel)) with
      | some known =>
          .ok ⟨known, chosen⟩
      | none =>
          .error .unknownLevel

/-- A text that is filled up with blanks to a width. -/
def padded (width : Nat) (text : Text) : Text :=
  text ++ List.replicate (width - text.length) ' '

/-- Whether a character makes the value of a field stand between quotes. -/
def needsQuotes (ch : Char) : Bool :=
  ch == ' ' || ch == '\t' || ch == '=' || ch == '\r' || ch == '\n' || ch == '"' || ch == '\''

/-- The value of a field on the console. -/
def consoleValue : Value → Text
  | .text content =>
      if content.any needsQuotes then
        quoted content
      else
        content
  | value =>
      value.display

/-- A record with everything that is written of it. -/
structure Entry where
  level : Level
  logger : Text
  time : Text
  record : Record

/-- All that a record says by name: its fields, the event, the level, the logger and the time. -/
def Entry.members (entry : Entry) : Mapping :=
  let fields := entry.record.fields.put "event".toList (.text entry.record.event)
  let levelled := fields.put "level".toList (.text entry.level.label)
  let named := levelled.put "logger".toList (.text entry.logger)
  named.put "timestamp".toList (.text entry.time)

/-- The names that have a place of their own in a line on the console. -/
def placedNames : List Text :=
  ["event".toList, "level".toList, "logger".toList, "timestamp".toList]

/-- A record as a line on the console. -/
def Entry.console (entry : Entry) : Text :=
  let others := entry.record.fields.filter fun field => !placedNames.contains field.1
  let ordered := others.mergeSort fun first second => comesBefore first.1 second.1
  let pairs := ordered.map fun field => field.1 ++ ['='] ++ consoleValue field.2
  let start := entry.time ++ " [".toList ++ padded 9 entry.level.label ++ "] ".toList ++
    padded 30 entry.record.event ++ " [".toList ++ entry.logger ++ [']']
  start ++ pairs.flatMap fun pair => ' ' :: pair

mutual

/-- A value as a record holds it: a repository or an unordered collection is replaced by the text
that displays it. -/
def recorded : Value → Value
  | .list items =>
      .list (recordedItems items)
  | .set items =>
      .text (Value.set items).display
  | .mapping entries =>
      .mapping (recordedEntries entries)
  | .repository kind data =>
      .text (Value.repository kind data).display
  | value =>
      value

/-- The items of a list as a record holds them. -/
def recordedItems : List Value → List Value
  | [] =>
      []
  | value :: rest =>
      recorded value :: recordedItems rest

/-- The entries of a mapping as a record holds them. -/
def recordedEntries : List (Text × Value) → List (Text × Value)
  | [] =>
      []
  | (key, value) :: rest =>
      (key, recorded value) :: recordedEntries rest

end

/-- A record as a JSON object on one line.  Nothing that a record holds is without a JSON form. -/
def Entry.json (entry : Entry) : Text :=
  ((Value.mapping (recordedEntries entry.members)).toJson none).toOption.getD []

/-- The lines that a writer makes of a record: none when the record is not severe enough. -/
def Writer.write (writer : Writer) (entry : Entry) : Text :=
  if entry.level.severity < writer.level.severity then
    []
  else
    match writer.format with
    | .console => entry.console ++ ['\n']
    | .json => entry.json ++ ['\n']

/-- The lines that a writer makes of the records of a run, all of them for debugging. -/
def Writer.writeAll (writer : Writer) (time : Text) (records : List Record) : Text :=
  records.flatMap fun record => writer.write ⟨.debug, parserLogger, time, record⟩

end GradleScript.Log
