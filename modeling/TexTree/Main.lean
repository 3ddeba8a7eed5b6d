import Std.Time.Format
import TexTree.CommandLine

/-!
# The program

Reads the directories in which files may be looked for, does what the arguments
say, writes the files that have changed, and prints the result and the log.
-/

namespace TexTree.Program

/-- The depth to which directories are read. -/
def maxDepth : Nat := 32

/-- The size up to which files are read. -/
def maxSize : UInt64 := 16777216

/-- Add a directory to a tree, with the files and directories in it. -/
def addDirectory : Nat → FileTree → String → IO FileTree
  | 0, tree, _ => return tree
  | depth + 1, tree, path => do
      let directory := (← IO.currentDir) / path
      if !(← directory.isDir) then return tree
      let mut known := tree.addDirectory (Path.components path)
      for entry in ← directory.readDir do
        let inner := Path.join path entry.fileName
        if ← entry.path.isDir then
          if !entry.fileName.startsWith "." then known ← addDirectory depth known inner
        else
          known ← try
              if (← entry.path.metadata).byteSize ≤ maxSize then
                pure (known.addFile (Path.components inner) (← IO.FS.readBinFile entry.path))
              else pure known
            catch _ => pure known
      return known

/-- The directories that are named by the options and the list of entries. -/
def directories (workingDirectory : String) (options : CommandLine.Options)
    (entries : Option String) : List String :=
  let parents := (options.input.toList ++ options.output.toList).filterMap fun path =>
    Path.parent? (Path.join workingDirectory path)
  let listed := (entries.getD "").splitOn ":"
  workingDirectory ::
    (parents ++ options.directories ++ listed).map fun path =>
      Path.withoutDots workingDirectory (Path.join workingDirectory path)

/-- The tree that the program works on. -/
def readTree (workingDirectory : String) (paths : List String) : IO FileTree :=
  paths.eraseDups.foldlM (addDirectory maxDepth) ⟨Path.components workingDirectory, [], []⟩

/-- Write the files that have changed. -/
def writeTree (before after : FileTree) : IO Unit :=
  after.files.forM fun (place, content) =>
    if (before.content? place).map ByteArray.data == some content.data then return
    else IO.FS.writeBinFile (Path.ofComponents true place) content

/-- The escape sequence for the colour of a level. -/
def colour : LogLevel → String
  | .error => "\x1b[31m"
  | .warning => "\x1b[33m"
  | .info => "\x1b[32m"

/-- Print a report with the time of day. -/
def printEntry (entry : LogEntry) : IO Unit := do
  let time := (← Std.Time.PlainDateTime.now).time.format "HH:mm:ss.SSS"
  IO.eprintln (time ++ " " ++ colour entry.level ++ CommandLine.levelText entry.level ++
    "\x1b[0m [" ++ entry.topic ++ "] " ++ entry.message)

/-- Do what the options say. -/
def run (options : CommandLine.Options) : IO UInt32 := do
  let start ← IO.monoMsNow
  let workingDirectory := (← IO.currentDir).toString
  let entries ← IO.getEnv "TEXINPUTS"
  let today ← Std.Time.PlainDate.now
  let date : Date := ⟨today.year.toInt, today.month.toNat, today.day.toNat⟩
  let tree ← readTree workingDirectory (directories workingDirectory options entries)
  let outcome := CommandLine.execute tree entries date options
  writeTree tree outcome.tree
  let shown := outcome.log.filter (CommandLine.isShown options)
  shown.forM printEntry
  IO.print outcome.output
  let finished : LogEntry :=
    .info "texdom" ("Finished after " ++ toString ((← IO.monoMsNow) - start) ++ "ms")
  if outcome.exitCode = 0 && CommandLine.isShown options finished then printEntry finished
  return outcome.exitCode.toUInt32

end TexTree.Program

/-- Interpret a source and print its tree. -/
def main (arguments : List String) : IO UInt32 := do
  match TexTree.CommandLine.parse arguments with
  | .ok (.interpret options) => TexTree.Program.run options
  | .ok .help =>
      IO.print TexTree.CommandLine.usage
      return 0
  | .ok .version =>
      IO.print TexTree.CommandLine.version
      return 0
  | .error error =>
      IO.eprintln ("error: " ++ error.message ++ "\n\n" ++ TexTree.CommandLine.usage)
      return 2
