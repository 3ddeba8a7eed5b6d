import TexTree.Engine.Number

/-!
# Files

Reading files into the input, and writing to output streams.  A file that cannot
be found or read is only reported.
-/

namespace TexTree

namespace Engine

/-- Read a file next. -/
def inputFile (name : String) : TexM Unit := do
  let engine ← get
  match engine.files.find? name "tex" engine.input.file? with
  | none => warn "files" ("File " ++ name ++ " not found")
  | some path =>
      match engine.files.tree.read path with
      | .ok text =>
          report (.info "files" ("Reading " ++ path))
          pushText text path
      | .error fault => warn "files" ("Could not read " ++ path ++ ": " ++ fault.message)

/-- Read the file that an argument names. -/
def readFile (interpreter : Interpreter) (token : Token) : TexM Unit := do
  let name ← if token.isNamed "include" then readName else readFileName interpreter
  inputFile name

/-- Change the files, with reports. -/
def changeFiles (change : Files → Files × List LogEntry) : TexM Unit := do
  let reports ← modifyGet fun engine =>
    let (files, reports) := change engine.files
    (reports, { engine with files })
  reportAll reports

/-- Open an output stream. -/
def openStream (interpreter : Interpreter) : TexM Unit := do
  let number ← readInteger interpreter
  skipEquals interpreter
  let name ← readFileName interpreter
  changeFiles (·.openStream number name)

/-- Write a line to an output stream; a negative stream is the log. -/
def writeStream (interpreter : Interpreter) : TexM Unit := do
  let number ← readInteger interpreter
  let tokens ← expandFully interpreter (← readArgumentFor "write")
  let line := Token.displayList tokens
  if number < 0 then report (.info "files" line)
  else changeFiles (·.writeLine number line)

/-- Close an output stream. -/
def closeStream (interpreter : Interpreter) : TexM Unit := do
  let number ← readInteger interpreter
  changeFiles fun files => (files.close number, [])

end Engine

end TexTree
