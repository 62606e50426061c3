import GradleScript.CommandLine.Program
import GradleScript.Log.Clock
import Std.Time.DateTime.Timestamp

namespace GradleScript.CommandLine

/-!
# The command line

The only part that acts: it collects what the program needs from outside, calls it, and prints what
it leaves.
-/

/-- The failure of the file system behind an error. -/
def faultOf (error : IO.Error) : FileFault :=
  match error with
  | .noFileOrDirectory _ _ _ =>
      .notFound
  | .inappropriateType none _ _ =>
      .isDirectory
  | .inappropriateType (some _) _ _ =>
      .notDirectory
  | .permissionDenied _ _ _ =>
      ⟨13, "Permission denied".toList⟩
  | .resourceExhausted _ _ _ =>
      .nameTooLong
  | .invalidArgument _ _ _ =>
      .nameTooLong
  | other =>
      ⟨5, (toString other).toList⟩

/-- The bytes at a path, or why they cannot be read. -/
def readBytes (path : Text) : IO (Except FileFault (List UInt8)) := do
  try
    let bytes ← IO.FS.readBinFile (String.ofList path)
    return .ok bytes.toList
  catch error =>
    return .error (faultOf error)

/-- The files at some paths. -/
def readFiles (paths : List Text) : IO Files := do
  let found ← (paths.filter fun path => !path.contains '\x00').mapM fun path => do
    let shortest := Path.ofText path
    return (shortest, ← readBytes shortest.toText)
  return ⟨fun path =>
    match found.find? fun entry => entry.1 == path with
    | some entry => entry.2
    | none => .error .notFound⟩

/-- The settings that the environment of the process gives. -/
def readEnvironment : IO (List (Text × Text)) := do
  let names := [Settings.evalName, Settings.levelName, Settings.formatName]
  let found ← names.mapM fun name => do
    let variableName := Settings.environmentName name
    let content ← IO.getEnv (String.ofList variableName)
    return content.map fun text => (variableName, text.toList)
  return found.filterMap id

/-- What is reported of a failure. -/
def Failure.report : Failure → Text
  | .setup (.settings errors) =>
      errors.flatMap fun error =>
        error.setting ++ ": ".toList ++ error.fault.message.toList ++ ['\n']
  | .setup .unknownLevel =>
      Log.SetupError.levelMessage.toList ++ ['\n']
  | .reading error =>
      error.message ++ ['\n']
  | .printing error =>
      error.message.toList ++ ['\n']

end GradleScript.CommandLine

open GradleScript GradleScript.CommandLine

/-- Call the program with the arguments of the process. -/
def main (arguments : List String) : IO UInt32 := do
  let words := arguments.map String.toList
  let now ← Std.Time.Timestamp.now
  let surroundings : Surroundings := {
    program := "gradle-to-json".toList
    environment := ← readEnvironment
    files := ← readFiles (pathsOf words)
    time := Log.isoTime (now.toNanosecondsSinceUnixEpoch.toInt.toNat / 1000)
  }
  let outcome := CommandLine.run surroundings words
  (← IO.getStdout).putStr (String.ofList outcome.output)
  (← IO.getStderr).putStr (String.ofList outcome.errors)
  for failure in outcome.failure.toList do
    (← IO.getStderr).putStr (String.ofList failure.report)
  return UInt32.ofNat outcome.exitCode
