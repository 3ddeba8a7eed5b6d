import TexTree.File.Path
import TexTree.Text.Bytes

/-!
# File trees

A file tree is what the interpreter sees of the file system: directories, files
with their contents, and the working directory that relative paths start from.
-/

namespace TexTree

/-- Why a file could not be read or written. -/
inductive FileError where
  | notFound
  | notDirectory
  | isDirectory
  deriving DecidableEq, Repr, Inhabited

/-- The fault in words. -/
def FileError.message : FileError → String
  | .notFound => "No such file or directory (os error 2)"
  | .notDirectory => "Not a directory (os error 20)"
  | .isDirectory => "Is a directory (os error 21)"

/-- Directories and files, each given by the names on the way from the root. -/
structure FileTree where
  workingDirectory : List String
  directories : List (List String)
  files : List (List String × ByteArray)
  deriving Inhabited

namespace FileTree

/-- Whether there is a directory at the place; the root is always there. -/
def hasDirectory (tree : FileTree) (place : List String) : Bool :=
  place.isEmpty || tree.directories.contains place

/-- The content of the file at the place. -/
def content? (tree : FileTree) (place : List String) : Option ByteArray :=
  (tree.files.find? fun file => file.1 == place).map Prod.snd

/-- What is wrong with going on from a place that is no directory. -/
def obstacle (tree : FileTree) (place : List String) : FileError :=
  if (tree.content? place).isSome then .notDirectory else .notFound

/-- Follow the parts of a path from a place. -/
def walk (tree : FileTree) : List String → List String → Except FileError (List String)
  | place, [] => .ok place
  | place, part :: rest =>
      if tree.hasDirectory place then
        if part == "" || part == "." then tree.walk place rest
        else if part == ".." then tree.walk place.dropLast rest
        else tree.walk (place ++ [part]) rest
      else .error (tree.obstacle place)

/-- The place that a path starts from. -/
def start (tree : FileTree) (path : String) : List String :=
  if Path.isAbsolute path then [] else tree.workingDirectory

/-- The place that a path leads to. -/
def resolve (tree : FileTree) (path : String) : Except FileError (List String) :=
  if path.isEmpty then .error .notFound
  else tree.walk (tree.start path) (Path.split path)

/-- Whether the path leads to a file. -/
def isFile (tree : FileTree) (path : String) : Bool :=
  match tree.resolve path with
  | .ok place => (tree.content? place).isSome
  | .error _ => false

/-- Whether the path leads to a directory. -/
def isDirectory (tree : FileTree) (path : String) : Bool :=
  match tree.resolve path with
  | .ok place => tree.hasDirectory place
  | .error _ => false

/-- The text of the file that a path leads to. -/
def read (tree : FileTree) (path : String) : Except FileError String := do
  let place ← tree.resolve path
  match tree.content? place with
  | some content => return Text.ofBytes content
  | none => throw (if tree.hasDirectory place then .isDirectory else .notFound)

/-- Give the file at a place a content. -/
def store (tree : FileTree) (place : List String) (content : ByteArray) : FileTree :=
  if (tree.content? place).isSome then
    { tree with
      files := tree.files.map fun file => if file.1 == place then (place, content) else file }
  else { tree with files := tree.files ++ [(place, content)] }

/-- The place of a file that may be created, which must lie in a directory.  A
path with a slash at its end can only be a directory. -/
def creatable (tree : FileTree) (path : String) : Except FileError (List String) := do
  let parts := Path.split path
  let place ← tree.walk (tree.start path) (parts.reverse.dropWhile (· == "")).reverse
  if parts.getLastD "" == "" || tree.hasDirectory place then throw .isDirectory
  return place

/-- Add a directory together with those that it lies in. -/
def addDirectory (tree : FileTree) (place : List String) : FileTree :=
  let missing := (List.range (place.length + 1)).filterMap fun length =>
    let above := place.take length
    if tree.hasDirectory above then none else some above
  { tree with directories := tree.directories ++ missing }

/-- Add a file together with the directories that it lies in. -/
def addFile (tree : FileTree) (place : List String) (content : ByteArray) : FileTree :=
  (tree.addDirectory place.dropLast).store place content

/-- The directories at and below a place, those above before those below. -/
def directoriesBelow (tree : FileTree) (place : List String) : List (List String) :=
  let below := tree.directories.filter fun directory => place.isPrefixOf directory
  below.mergeSort fun left right => !(right.lex left (· < ·))

end FileTree

end TexTree
