import GradleScript.Script

namespace GradleScript

/-!
# Projects

A project is a main file and the root files that go before it.  The root files are parsed for their
variables alone.  The main file is parsed twice: the first pass collects the variables declared
anywhere in it, and the second one, which knows them all, gives the result.  When a file cannot be
read nothing of it is parsed, and what earlier passes wrote stays.
-/

/-- A main file and its root files, by their paths. -/
structure Project where
  path : Text
  roots : List Text := []
  deriving Repr, DecidableEq

namespace Project

/-- Make one pass over a file. -/
def pass
    (files : Files)
    (restricted : Bool)
    (journal : Journal)
    (label : PassLabel)
    (path : Text) :
    Except ReadError Mapping × Journal :=
  match files.scriptText path with
  | .error error =>
      (.error error, journal)
  | .ok text =>
      let (result, left) := Script.parse Closures.standard restricted journal text
      (.ok result,
        left.report (.passComplete path label result.length left.table.size))

/-- Make the passes over root files, in order, up to the first that cannot be read. -/
def passRoots
    (files : Files)
    (restricted : Bool) :
    Journal → List Text → Except ReadError Unit × Journal
  | journal, [] =>
      (.ok (), journal)
  | journal, root :: roots =>
      match pass files restricted journal .root root with
      | (.error error, left) =>
          (.error error, left)
      | (.ok _, left) =>
          passRoots files restricted left roots

/-- Parse a project: what its main file denotes, and the journal of all its passes. -/
def parse
    (files : Files)
    (restricted : Bool)
    (journal : Journal)
    (project : Project) :
    Except ReadError Mapping × Journal :=
  match passRoots files restricted journal project.roots with
  | (.error error, left) =>
      (.error error, left)
  | (.ok _, seeded) =>
      match pass files restricted seeded .first project.path with
      | (.error error, left) =>
          (.error error, left)
      | (.ok _, collected) =>
          pass files restricted collected .final project.path

/-! ## Files that change -/

/-- A pass that is to be made over a file, among the files as they are at that time. -/
structure Visit where
  files : Files
  label : PassLabel
  path : Text

/-- The passes over a project, in order, each among the files of its own time. -/
def visits (moments : Nat → Files) (project : Project) : List Visit :=
  let passes :=
    project.roots.map (fun root => (PassLabel.root, root)) ++
      [(.first, project.path), (.final, project.path)]
  passes.zipIdx.map fun (pass, index) => ⟨moments index, pass.1, pass.2⟩

/-- Make passes, in order, up to the first whose file cannot be read.  The last one gives the
result. -/
def passEach
    (restricted : Bool) :
    Mapping → Journal → List Visit → Except ReadError Mapping × Journal
  | result, journal, [] =>
      (.ok result, journal)
  | _, journal, visit :: later =>
      match pass visit.files restricted journal visit.label visit.path with
      | (.error error, left) =>
          (.error error, left)
      | (.ok result, left) =>
          passEach restricted result left later

/-- Parse a project whose files may change between two passes. -/
def parseDuring
    (moments : Nat → Files)
    (restricted : Bool)
    (journal : Journal)
    (project : Project) :
    Except ReadError Mapping × Journal :=
  passEach restricted [] journal (project.visits moments)

end Project

end GradleScript
