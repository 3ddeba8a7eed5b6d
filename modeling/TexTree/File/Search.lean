import TexTree.File.Tree
import TexTree.Text.Blank

/-!
# Search paths

A file is looked for next to the file that is being read, in the working
directory, and then in the directories of the search path.  These come from the
settings and from a list in which an empty entry stands for the working
directory, and an entry with two slashes at its end for a directory with
everything below it.
-/

namespace TexTree

/-- Where files are looked for. -/
structure SearchPath where
  workingDirectory : String
  directories : List String
  deriving DecidableEq, Repr, Inhabited

namespace SearchPath

/-- A directory with everything below it, as paths that start like the given
one. -/
def recursive (tree : FileTree) (path : String) : List String :=
  match tree.resolve path with
  | .error _ => []
  | .ok place =>
      if tree.hasDirectory place then
        (tree.directoriesBelow place).filterMap fun directory =>
          if directory.getLast? == some ".git" then none
          else
            some ((directory.drop place.length).foldl Path.join path)
      else []

/-- The directories that one entry of a list stands for. -/
def ofEntry (tree : FileTree) (workingDirectory entry : String) : List String :=
  if entry.isEmpty then
    if tree.isDirectory workingDirectory then [workingDirectory] else []
  else
    let reversed := entry.toList.reverse
    if "//".toList.isPrefixOf reversed then
      recursive tree
        (Path.join workingDirectory (String.ofList (reversed.drop 2).reverse))
    else
      let path := Path.join workingDirectory entry
      if tree.isDirectory path then [path] else []

/-- The search path for additional directories and an optional list of entries
separated by colons. -/
def build (tree : FileTree) (workingDirectory : String) (additional : List String)
    (entries : Option String) : SearchPath :=
  let fromSettings := (additional.map (Path.join workingDirectory)).filter tree.isDirectory
  let fromEntries := match entries with
    | some list => (list.splitOn ":").flatMap (ofEntry tree workingDirectory)
    | none => []
  ⟨workingDirectory, fromSettings ++ fromEntries⟩

/-- The names under which a file is looked for, with and without the extension.
-/
def candidates (name extension : String) : List String :=
  let extended := name ++ "." ++ extension
  if extension.isEmpty || (Path.extension? name).isSome then [name, extended]
  else [extended, name]

/-- The path of a file, looked for next to the current directory first. -/
def find? (search : SearchPath) (tree : FileTree) (name extension : String)
    (current : Option String) : Option String :=
  let name := Text.trim name
  if name.isEmpty then none
  else if Path.isAbsolute name then (candidates name extension).find? tree.isFile
  else
    let roots := current.toList ++ [search.workingDirectory] ++ search.directories
    let paths := roots.flatMap fun root => (candidates name extension).map (Path.join root)
    (paths.find? tree.isFile).map
      (Path.withoutDots (Path.ofComponents true tree.workingDirectory))

end SearchPath

end TexTree
