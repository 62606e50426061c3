import GradleScript.Source.Path

namespace GradleScript

/-!
# Files

Scripts are read from files, which are given by the bytes at each path.  A file tree is a set of
files held in memory: its directories are those that lead to a file, and everything above it and
everything absolute is a directory of which nothing more is known.
-/

/-- A failure of the file system, by its number and its description. -/
structure FileFault where
  number : Nat
  description : Text
  deriving Repr, DecidableEq

namespace FileFault

/-- Nothing is at the path. -/
def notFound : FileFault :=
  ⟨2, "No such file or directory".toList⟩

/-- A component before the last one is a file. -/
def notDirectory : FileFault :=
  ⟨20, "Not a directory".toList⟩

/-- The path leads to a directory. -/
def isDirectory : FileFault :=
  ⟨21, "Is a directory".toList⟩

/-- A component, or the whole path, has too many bytes. -/
def nameTooLong : FileFault :=
  ⟨36, "File name too long".toList⟩

end FileFault

/-- The bytes at each path, or why they cannot be read. -/
structure Files where
  read : Path → Except FileFault (List UInt8)

/-- Files in memory, each with the components of its path. -/
abbrev FileTree := List (List Text × List UInt8)

/-- Where a path leads in a file tree. -/
inductive Place where
  | directory (parts : List Text)
  | file (bytes : List UInt8)
  /-- Some directories above the tree, or outside it. -/
  | outside
  deriving Repr, DecidableEq

namespace FileTree

/-- The number of bytes of a text in UTF-8. -/
def byteLength (text : Text) : Nat :=
  text.foldl (fun count ch => count + ch.utf8Size) 0

/-- The most bytes of a component. -/
def maxPartLength : Nat :=
  255

/-- The most bytes of a whole path. -/
def maxPathLength : Nat :=
  4095

/-- The tree of files with the given names. -/
def ofNames (files : List (Text × List UInt8)) : FileTree :=
  files.map fun file => ((Path.ofText file.1).parts, file.2)

/-- What a component names inside a directory of the tree. -/
def enter (tree : FileTree) (parts : List Text) (part : Text) : Except FileFault Place :=
  let inner := parts ++ [part]
  match List.find? (fun file => file.1 == inner) tree with
  | some file =>
      .ok (.file file.2)
  | none =>
      if List.any tree (fun file => inner.isPrefixOf file.1) then
        .ok (.directory inner)
      else
        .error .notFound

/-- Go from a place to what the next component names there. -/
def walk (tree : FileTree) (place : Place) (part : Text) : Except FileFault Place :=
  match place with
  | .file _ =>
      .error .notDirectory
  | .outside =>
      if part == Path.parentPart then
        .ok .outside
      else if byteLength part > maxPartLength then
        .error .nameTooLong
      else
        .error .notFound
  | .directory parts =>
      if part == Path.parentPart then
        .ok (if parts.isEmpty then .outside else .directory parts.dropLast)
      else if byteLength part > maxPartLength then
        .error .nameTooLong
      else
        tree.enter parts part

/-- Where a path leads. -/
def find (tree : FileTree) (path : Path) : Except FileFault Place :=
  if byteLength path.toText > maxPathLength then
    .error .nameTooLong
  else
    path.parts.foldlM tree.walk (if path.anchor.isEmpty then .directory [] else .outside)

/-- The files of a tree. -/
def files (tree : FileTree) : Files where
  read path :=
    match tree.find path with
    | .ok (.file bytes) => .ok bytes
    | .ok _ => .error .isDirectory
    | .error fault => .error fault

end FileTree

end GradleScript
