import GradleScript.CommandLine.Pages
import GradleScript.Log.Writer
import GradleScript.Project
import GradleScript.Text.Integer

namespace GradleScript.CommandLine

/-!
# The program

The program reads its arguments, sets up logging, parses the file it is given, and prints the
mapping of the file as JSON.  All it needs from outside is given to it: its name, the environment,
the files, and the time for log records.
-/

/-- What ends the program before its work is done. -/
inductive Failure where
  | setup (error : Log.SetupError)
  | reading (error : ReadError)
  | printing (error : JsonError)
  deriving Repr, DecidableEq

/-- What the program leaves: an exit code, what it printed, and what ended it early. -/
structure Outcome where
  exitCode : Nat := 0
  output : Text := []
  errors : Text := []
  failure : Option Failure := none
  deriving Repr, DecidableEq

/-- What the program is given from outside. -/
structure Surroundings where
  program : Text
  environment : List (Text × Text)
  files : Files
  time : Text

/-- What the command is to do. -/
structure Request where
  project : Project
  evalEverywhere : Bool
  indent : Int
  deriving Repr, DecidableEq

/-- The indentation of the printed JSON, unless another one is given. -/
def defaultIndent : Int :=
  2

/-- The indentation that the arguments give. -/
def indentOf (arguments : Arguments) : Except UsageError Int :=
  match arguments.valueOf? .indent with
  | none =>
      .ok defaultIndent
  | some word =>
      match integer? word with
      | some width => .ok width
      | none => .error (.notAnInteger word)

/-- What the arguments of the command ask for. -/
def Request.ofArguments (arguments : Arguments) : Except UsageError Request :=
  match indentOf arguments, arguments.words with
  | .error error, _ =>
      .error error
  | .ok _, [] =>
      .error .missingPath
  | .ok indent, path :: roots =>
      .ok ⟨⟨path, roots⟩, arguments.chooses .evalEverywhere, indent⟩

/-- The paths that a call of the program may read. -/
def pathsOf (arguments : List Text) : List Text :=
  match programGrammar.read arguments with
  | .ok ⟨_, _ :: others⟩ =>
      match runGrammar.read others with
      | .ok given => given.words
      | .error _ => []
  | _ =>
      []

/-- Carry out a request, with a writer for log records. -/
def perform (surroundings : Surroundings) (writer : Log.Writer) (request : Request) : Outcome :=
  match Settings.ofEnvironment surroundings.environment with
  | .error errors =>
      { exitCode := 1, failure := some (.setup (.settings errors)) }
  | .ok settings =>
      let restricted := settings.evalDependenciesOnly && !request.evalEverywhere
      let (parsed, journal) :=
        Project.parse surroundings.files restricted {} request.project
      let logged := writer.writeAll surroundings.time journal.records
      match parsed with
      | .error (.unreadable name cause) =>
          let message := (ReadError.unreadable name cause).message
          { exitCode := 1, errors := logged ++ "Error: ".toList ++ message ++ ['\n'] }
      | .error .nullInPath =>
          { exitCode := 1, errors := logged, failure := some (.reading .nullInPath) }
      | .ok entries =>
          match (Value.mapping entries).toJson (some request.indent) with
          | .ok text =>
              { output := text ++ ['\n'], errors := logged }
          | .error error =>
              { exitCode := 1, errors := logged, failure := some (.printing error) }

/-- The outcome of arguments that cannot be used. -/
def refuse (surroundings : Surroundings) (inCommand : Bool) (error : UsageError) : Outcome :=
  let usage := if inCommand then runUsage else programUsage
  { exitCode := 2, errors := usageReport surroundings.program usage inCommand error }

/-- Call the command with its own arguments. -/
def runCommand
    (surroundings : Surroundings)
    (verbose : Bool)
    (arguments : List Text) :
    Outcome :=
  let level := if verbose then some Log.Level.debug.name else none
  match Log.Writer.ofEnvironment surroundings.environment level none with
  | .error error =>
      { exitCode := 1, failure := some (.setup error) }
  | .ok writer =>
      match runGrammar.read arguments with
      | .error error =>
          refuse surroundings true error
      | .ok given =>
          if given.chooses .help then
            { output := runHelp surroundings.program }
          else
            match Request.ofArguments given with
            | .error error => refuse surroundings true error
            | .ok request => perform surroundings writer request

/-- The outcome of a word that is no command.  When it is written like an option, what follows is
read as options once more. -/
def refuseCommand (surroundings : Surroundings) (name : Text) (others : List Text) : Outcome :=
  match programGrammar.read (name :: others) with
  | .error error =>
      refuse surroundings false error
  | .ok given =>
      if given.chooses .help then
        { output := programHelp surroundings.program }
      else
        refuse surroundings false (.noSuchCommand name (similarWords name [runName]))

/-- Call the program. -/
def run (surroundings : Surroundings) (arguments : List Text) : Outcome :=
  if arguments.isEmpty then
    { exitCode := 2, errors := programHelp surroundings.program }
  else
    match programGrammar.read arguments with
    | .error error =>
        refuse surroundings false error
    | .ok given =>
        if given.chooses .help then
          { output := programHelp surroundings.program }
        else
          match given.words with
          | [] =>
              refuse surroundings false .missingCommand
          | name :: others =>
              if name == runName then
                runCommand surroundings (given.chooses .verbose) others
              else
                refuseCommand surroundings name others

end GradleScript.CommandLine
