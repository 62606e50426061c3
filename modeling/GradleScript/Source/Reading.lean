import GradleScript.Source.Files
import GradleScript.Source.Utf8

namespace GradleScript

/-!
# Reading scripts

The text of a script comes from a file or from a stream of pieces.  A file is decoded and its line
ends are made equal; a stream is decoded piece by piece and its line ends are kept.
-/

/-- Why the text of a script cannot be had. -/
inductive ReadCause where
  /-- The file system refuses the path, given in its shortest spelling. -/
  | file (fault : FileFault) (path : Text)
  /-- Some bytes are not UTF-8. -/
  | encoding (fault : Utf8.Fault)
  /-- The stream failed, with words of its own. -/
  | stream (failure : Text)
  deriving Repr, DecidableEq

/-- The text of a cause. -/
def ReadCause.message : ReadCause → Text
  | .file fault path =>
      "[Errno ".toList ++ Nat.toDigits 10 fault.number ++ "] ".toList ++ fault.description ++
        ": ".toList ++ quoted path
  | .encoding fault =>
      fault.message
  | .stream failure =>
      failure

/-- Why a script cannot be read. -/
inductive ReadError where
  /-- The script of this name has no text. -/
  | unreadable (name : Text) (cause : ReadCause)
  /-- No file can have a path with a null character. -/
  | nullInPath
  deriving Repr, DecidableEq

/-- The text of an error. -/
def ReadError.message : ReadError → Text
  | .unreadable name cause =>
      "Cannot read build script '".toList ++ name ++ "': ".toList ++ cause.message
  | .nullInPath =>
      "embedded null byte".toList

/-- A text in which every line ends with a line feed alone. -/
def unifyLineEnds : Text → Text
  | '\r' :: '\n' :: rest =>
      '\n' :: unifyLineEnds rest
  | '\r' :: rest =>
      '\n' :: unifyLineEnds rest
  | ch :: rest =>
      ch :: unifyLineEnds rest
  | [] =>
      []

/-- The text of the script at a path. -/
def Files.scriptText (files : Files) (name : Text) : Except ReadError Text :=
  if name.contains '\x00' then
    .error .nullInPath
  else
    match files.read (Path.ofText name) with
    | .error fault =>
        .error (.unreadable name (.file fault (Path.ofText name).toText))
    | .ok bytes =>
        match Utf8.decode bytes with
        | .error fault =>
            .error (.unreadable name (.encoding fault))
        | .ok text =>
            .ok (unifyLineEnds text)

/-- A piece of a stream. -/
inductive Chunk where
  | text (content : Text)
  | bytes (content : List UInt8)
  /-- The stream fails here, with words of its own. -/
  | failure (words : Text)
  deriving Repr, DecidableEq

namespace Chunk

/-- Take one piece of a stream.  A text comes after everything decoded before it; bytes go on with
the character that earlier bytes began. -/
def decode (decoder : Utf8.Decoder) : Chunk → Except ReadCause Utf8.Decoder
  | .text content =>
      .ok { decoder with decoded := content.reverse ++ decoder.decoded }
  | .bytes content =>
      (decoder.rebase.feedAll content).mapError ReadCause.encoding
  | .failure words =>
      .error (.stream words)

/-- The whole text of a stream. -/
def joined (chunks : List Chunk) : Except ReadCause Text :=
  match chunks.foldlM decode {} with
  | .error cause =>
      .error cause
  | .ok decoder =>
      decoder.rebase.finish.mapError ReadCause.encoding

/-- The text of the stream of a given name. -/
def streamText (name : Text) (chunks : List Chunk) : Except ReadError Text :=
  (joined chunks).mapError (ReadError.unreadable name)

end Chunk

end GradleScript
