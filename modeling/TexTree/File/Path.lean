/-!
# Paths

Names of files and directories, written with slashes.  The functions of this
module look at the text of a path only; whether there is such a file is the
business of the file tree.
-/

namespace TexTree.Path

/-- Whether the path starts at the root. -/
def isAbsolute (path : String) : Bool := path.toList.head? == some '/'

/-- The parts between slashes, some of which may be empty. -/
def split (path : String) : List String := path.splitOn "/"

/-- The parts that name something.  A part that stands for the directory it is
in counts only at the start of a relative path. -/
def components (path : String) : List String :=
  match split path with
  | "." :: rest => "." :: rest.filter fun part => part != "" && part != "."
  | parts => parts.filter fun part => part != "" && part != "."

/-- The path with the given parts. -/
def ofComponents (absolute : Bool) (parts : List String) : String :=
  (if absolute then "/" else "") ++ "/".intercalate parts

/-- The last part, if it names a file. -/
def fileName? (path : String) : Option String :=
  match (components path).getLast? with
  | some "." | some ".." | none => none
  | name => name

/-- The part of a name before its last point and the part behind it.  A point at
the start divides nothing. -/
def splitName (name : String) : String × Option String :=
  let reversed := name.toList.reverse
  match reversed.dropWhile (· != '.') with
  | _ :: before =>
      if before.isEmpty then (name, none)
      else
        (String.ofList before.reverse,
          some (String.ofList (reversed.takeWhile (· != '.')).reverse))
  | [] => (name, none)

/-- What stands behind the last point of the file name. -/
def extension? (path : String) : Option String :=
  (fileName? path).bind fun name => (splitName name).2

/-- The file name without its extension. -/
def stem? (path : String) : Option String :=
  (fileName? path).map fun name => (splitName name).1

/-- The directory that holds the last part. -/
def parent? (path : String) : Option String :=
  match components path with
  | [] => none
  | parts => some (ofComponents (isAbsolute path) parts.dropLast)

/-- A path seen from a directory. -/
def join (base path : String) : String :=
  if isAbsolute path then path
  else if base.isEmpty || base.toList.getLast? == some '/' then base ++ path
  else base ++ "/" ++ path

/-- Add a part to a reversed list of parts, going back where it says so. -/
def follow (reversed : List String) (part : String) : List String :=
  if part == ".." then reversed.drop 1 else part :: reversed

/-- The path without parts that stand for the same or the enclosing directory.
Such a part at the start of a relative path refers to the working directory. -/
def withoutDots (workingDirectory path : String) : String :=
  let parts := components path
  match isAbsolute path, parts with
  | true, parts => ofComponents true (parts.foldl follow []).reverse
  | false, "." :: rest =>
      ofComponents (isAbsolute workingDirectory)
        (rest.foldl follow (components workingDirectory).reverse).reverse
  | false, ".." :: rest =>
      ofComponents (isAbsolute workingDirectory)
        (rest.foldl follow ((components workingDirectory).reverse.drop 1)).reverse
  | false, parts => ofComponents false (parts.foldl follow []).reverse

end TexTree.Path
