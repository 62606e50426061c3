import GradleScript.CommandLine.Arguments

namespace GradleScript.CommandLine

/-!
# Help pages

The program has one command.  Each of the two has its grammar, its usage line and its help page.
-/

/-- The name of the command. -/
def runName : Text :=
  "run".toList

/-- The option that shows a help page. -/
def helpSpelling : Spelling where
  choice := .help
  long := "--help".toList

/-- What the program itself understands. -/
def programGrammar : Grammar where
  spellings :=
    [{ choice := .verbose, long := "--verbose".toList, short := some 'v' }, helpSpelling]
  interspersed := false

/-- What the command understands. -/
def runGrammar : Grammar where
  spellings :=
    [{ choice := .evalEverywhere, long := "--eval-everywhere".toList },
      { choice := .indent, long := "--indent".toList, takesValue := true },
      helpSpelling]
  interspersed := true

/-- Lines of text, each with its line end. -/
def lines (contents : List String) : Text :=
  contents.flatMap fun content => content.toList ++ ['\n']

/-- How the program is called, after its name. -/
def programUsage : Text :=
  " [OPTIONS] COMMAND [ARGS]...".toList

/-- How the command is called, after the name of the program. -/
def runUsage : Text :=
  " run [OPTIONS] PATH [ROOT_PATHS]...".toList

/-- The usage line of the program or of the command. -/
def usageLine (program usage : Text) : Text :=
  "Usage: ".toList ++ program ++ usage ++ ['\n']

/-- The help page of the program. -/
def programHelp (program : Text) : Text :=
  usageLine program programUsage ++ lines [
    "",
    "  gradle-to-json: convert Gradle build scripts to JSON without running them.",
    "",
    "Options:",
    "  -v, --verbose  Verbose logging (to stderr)",
    "  --help         Show this message and exit.",
    "",
    "Commands:",
    "  run  Parse PATH and print it as JSON."]

/-- The help page of the command. -/
def runHelp (program : Text) : Text :=
  usageLine program runUsage ++ lines [
    "",
    "  Parse PATH and print it as JSON.",
    "",
    "  ROOT_PATHS are parsed first, only to collect variables (e.g. the project's",
    "  top-level build.gradle).",
    "",
    "Options:",
    "  --eval-everywhere  Interpolate $variables everywhere, not only inside",
    "                     dependencies blocks",
    "  --indent INTEGER   JSON indentation  [default: 2]",
    "  --help             Show this message and exit."]

/-- The report of a usage error.  The command, when it is the one called, is named in the hint. -/
def usageReport (program usage : Text) (inCommand : Bool) (error : UsageError) : Text :=
  let report := "Error: ".toList ++ error.message ++ ['\n']
  if error.showsUsage then
    let called := if inCommand then program ++ [' '] ++ runName else program
    usageLine program usage ++ "Try '".toList ++ called ++ " --help' for help.\n\n".toList ++ report
  else
    report

end GradleScript.CommandLine
