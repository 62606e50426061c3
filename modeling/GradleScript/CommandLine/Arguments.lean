import GradleScript.Text.Quoted
import GradleScript.Text.Similar

namespace GradleScript.CommandLine

/-!
# Arguments

The arguments of a command are options and positional words.  An option is written with two dashes
and its name, a flag also with one dash and a letter; what follows two dashes alone is positional.
A command may stop at its first positional word, so that the rest belongs to another command.
-/

/-- The options of the program. -/
inductive Choice where
  | verbose
  | help
  | evalEverywhere
  | indent
  deriving Repr, DecidableEq

/-- How an option is written. -/
structure Spelling where
  choice : Choice
  long : Text
  /-- The letter of a flag. -/
  short : Option Char := none
  takesValue : Bool := false
  deriving Repr, DecidableEq

/-- What a command understands: its options, and whether they may follow positional words. -/
structure Grammar where
  spellings : List Spelling
  interspersed : Bool
  deriving Repr, DecidableEq

/-- What is wrong with the arguments. -/
inductive UsageError where
  | noSuchOption (name : Text) (similar : List Text)
  | noSuchCommand (name : Text) (similar : List Text)
  | missingCommand
  | missingPath
  | notAnInteger (word : Text)
  | needsValue (name : Text)
  | takesNoValue (name : Text)
  deriving Repr, DecidableEq

namespace UsageError

/-- A hint at what may have been meant; several words are listed in the order of their
characters. -/
def hint : List Text → Text
  | [] =>
      []
  | [name] =>
      " Did you mean ".toList ++ quoted name ++ ['?']
  | names =>
      " (Did you mean one of: ".toList ++
        joinWith ", ".toList ((names.mergeSort comesBefore).map quoted) ++ ['?', ')']

/-- The text of an error. -/
def message : UsageError → Text
  | .noSuchOption name similar =>
      "No such option ".toList ++ quoted name ++ ['.'] ++ hint similar
  | .noSuchCommand name similar =>
      "No such command ".toList ++ quoted name ++ ['.'] ++ hint similar
  | .missingCommand =>
      "Missing command.".toList
  | .missingPath =>
      "Missing argument 'PATH'.".toList
  | .notAnInteger word =>
      "Invalid value for '--indent': ".toList ++ quoted word ++
        " is not a valid integer.".toList
  | .needsValue name =>
      "Option ".toList ++ quoted name ++ " requires an argument.".toList
  | .takesNoValue name =>
      "Option ".toList ++ quoted name ++ " does not take a value.".toList

/-- Whether an error is reported with the usage of the command. -/
def showsUsage : UsageError → Bool
  | .needsValue _ => false
  | .takesNoValue _ => false
  | _ => true

end UsageError

/-- The options that were given, in order, with the values of those that take one, and the
positional words. -/
structure Arguments where
  chosen : List (Choice × Text) := []
  words : List Text := []
  deriving Repr, DecidableEq

namespace Arguments

/-- Put options in front of those that follow. -/
def choosing (arguments : Arguments) (chosen : List (Choice × Text)) : Arguments :=
  { arguments with chosen := chosen ++ arguments.chosen }

/-- Put a positional word in front of those that follow. -/
def naming (arguments : Arguments) (word : Text) : Arguments :=
  { arguments with words := word :: arguments.words }

/-- Whether an option was given. -/
def chooses (arguments : Arguments) (choice : Choice) : Bool :=
  arguments.chosen.any fun entry => entry.1 == choice

/-- The last value given for an option. -/
def valueOf? (arguments : Arguments) (choice : Choice) : Option Text :=
  (arguments.chosen.reverse.find? fun entry => entry.1 == choice).map Prod.snd

end Arguments

/-- What one argument that is an option says. -/
inductive OptionReading where
  | complete (chosen : List (Choice × Text))
  /-- The next argument is the value of the option. -/
  | awaiting (spelling : Spelling)
  deriving Repr, DecidableEq

namespace Grammar

/-- The long names of the options. -/
def longNames (grammar : Grammar) : List Text :=
  grammar.spellings.map Spelling.long

/-- Read flags that are written with one dash. -/
def readLetters (grammar : Grammar) : Text → Except UsageError (List (Choice × Text))
  | [] =>
      .ok []
  | letter :: rest =>
      match grammar.spellings.find? fun spelling => spelling.short == some letter with
      | none =>
          .error (.noSuchOption ['-', letter] [])
      | some spelling =>
          (grammar.readLetters rest).map fun chosen => (spelling.choice, []) :: chosen

/-- Read an argument that is an option, with its value when that stands after an equals sign. -/
def readOption (grammar : Grammar) (argument : Text) : Except UsageError OptionReading :=
  let name := argument.takeWhile fun ch => ch != '='
  match grammar.spellings.find? fun spelling => spelling.long == name with
  | some spelling =>
      match argument.drop name.length with
      | [] =>
          if spelling.takesValue then
            .ok (.awaiting spelling)
          else
            .ok (.complete [(spelling.choice, [])])
      | _ :: value =>
          if spelling.takesValue then
            .ok (.complete [(spelling.choice, value)])
          else
            .error (.takesNoValue name)
  | none =>
      if ['-', '-'].isPrefixOf argument then
        .error (.noSuchOption name (similarWords name grammar.longNames))
      else
        (grammar.readLetters (argument.drop 1)).map OptionReading.complete

/-- Whether an argument is an option: a dash with something after it. -/
def isOption : Text → Bool
  | '-' :: _ :: _ => true
  | _ => false

/-- Read the arguments of a command. -/
def read (grammar : Grammar) : List Text → Except UsageError Arguments
  | [] =>
      .ok {}
  | argument :: rest =>
      if argument == ['-', '-'] then
        .ok { words := rest }
      else if isOption argument then
        match grammar.readOption argument with
        | .error error =>
            .error error
        | .ok (.complete chosen) =>
            (grammar.read rest).map fun arguments => arguments.choosing chosen
        | .ok (.awaiting spelling) =>
            match rest with
            | [] =>
                .error (.needsValue spelling.long)
            | value :: others =>
                (grammar.read others).map fun arguments =>
                  arguments.choosing [(spelling.choice, value)]
      else if grammar.interspersed then
        (grammar.read rest).map fun arguments => arguments.naming argument
      else
        .ok { words := argument :: rest }

end Grammar

end GradleScript.CommandLine
