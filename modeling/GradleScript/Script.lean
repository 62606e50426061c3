import GradleScript.Block.Run
import GradleScript.Source.Reading

namespace GradleScript.Script

/-!
# Scripts

A pass over a script reads its whole text as one body.  Several passes may share a variable table:
the journal that one pass leaves is the journal of the next.  A stream is read whole before it is
parsed, so nothing of a stream that fails is parsed.
-/

/-- Parse the text of a script: what it denotes, and the journal the pass leaves. -/
def parse
    (closures : Closures)
    (restricted : Bool)
    (journal : Journal)
    (text : Text) :
    Mapping × Journal :=
  let read := (Session.ofText text restricted journal).readBody closures {} true
  (read.2, read.1.journal)

/-- Parse the text of a stream of a given name. -/
def parseChunks
    (restricted : Bool)
    (journal : Journal)
    (name : Text)
    (chunks : List Chunk) :
    Except ReadError Mapping × Journal :=
  match Chunk.streamText name chunks with
  | .error error =>
      (.error error, journal)
  | .ok text =>
      let (result, left) := parse Closures.standard restricted journal text
      (.ok result, left)

end GradleScript.Script
