import TexTree.File.Search
import TexTree.Log

/-!
# Files and output streams

The files of a session: a tree, a search path, the directory for output, and the
streams that are open for writing.  What is written to a stream reaches its file
when the stream is closed; it then replaces as much of the beginning of the file
as it is long.
-/

namespace TexTree

/-- A file that is open for writing, and the text for it. -/
structure OutputStream where
  place : List String
  text : String
  deriving DecidableEq, Repr, Inhabited

/-- The files of a session. -/
structure Files where
  tree : FileTree
  search : SearchPath
  outputDirectory : String
  streams : List (Int × OutputStream)
  deriving Inhabited

namespace Files

/-- The file with the given name, looked for next to the file that is being
read.  Texts that come from no file have a name in angle brackets. -/
def find? (files : Files) (name extension : String) (current : Option String) : Option String :=
  let directory := current.bind fun file =>
    if file.toList.head? == some '<' then none else Path.parent? file
  files.search.find? files.tree name extension directory

/-- Write the text of a stream over the beginning of a file. -/
def flush (tree : FileTree) (stream : OutputStream) : FileTree :=
  let old := (tree.content? stream.place).getD ByteArray.empty
  let new := stream.text.toUTF8
  tree.store stream.place (new ++ old.extract new.size old.size)

/-- Close a stream. -/
def close (files : Files) (number : Int) : Files :=
  match files.streams.lookup number with
  | none => files
  | some stream =>
      { files with
        tree := flush files.tree stream
        streams := files.streams.filter fun entry => entry.1 != number }

/-- Close all streams. -/
def closeAll (files : Files) : Files :=
  (files.streams.map Prod.fst).foldl close files

/-- Open a file for writing, which empties it.  A name without an extension gets
the usual one. -/
def openStream (files : Files) (number : Int) (name : String) : Files × List LogEntry :=
  let named := if (Path.extension? name).isSome then name else name ++ ".tex"
  let path := Path.join files.outputDirectory named
  let closed := files.close number
  match closed.tree.creatable path with
  | .ok place =>
      ({ closed with
         tree := closed.tree.store place ByteArray.empty
         streams := closed.streams ++ [(number, ⟨place, ""⟩)] }, [])
  | .error fault =>
      (closed,
        [.warning "files" ("Could not open " ++ path ++ " for writing: " ++ fault.message)])

/-- Write a line to a stream; where none is open, the line goes to the log. -/
def writeLine (files : Files) (number : Int) (line : String) : Files × List LogEntry :=
  if (files.streams.lookup number).isSome then
    ({ files with
       streams := files.streams.map fun entry =>
         if entry.1 == number then (number, { entry.2 with text := entry.2.text ++ line ++ "\n" })
         else entry }, [])
  else (files, [.info "files" line])

end Files

end TexTree
