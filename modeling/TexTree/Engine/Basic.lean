import TexTree.Counter.Template
import TexTree.Fault
import TexTree.File.Stream
import TexTree.Input.Argument
import TexTree.Reference
import TexTree.Scope

/-!
# The state of the interpreter

An engine holds everything that interpretation depends on and changes: the input,
the scopes, counters, registers and references, the document that is being built,
and the files.  Interpreting is done in a monad over engines whose errors leave
the engine as it is at that moment.

Expanding a command, reading the next item and digesting a node refer to each
other without a bound that could be read off the input.  They are therefore asked
for as tasks of an interpreter, which is a parameter of everything that needs
them.
-/

namespace TexTree

/-- What the user can choose. -/
structure Settings where
  /-- The name of the job, if it is not taken from the main file. -/
  jobName : Option String := none
  /-- Whether names without a meaning are reported. -/
  reportsUnrecognized : Bool := true
  /-- Whether the files of packages that are not built in are read. -/
  readsPackages : Bool := false
  /-- How many expansions may follow each other without producing anything. -/
  expansionLimit : Nat := 10000
  deriving DecidableEq, Repr, Inhabited

/-- A day. -/
structure Date where
  year : Int
  month : Nat
  day : Nat
  deriving DecidableEq, Repr, Inhabited

/-- What interpretation produces: characters and nodes.  Markers of token lists
are passed on as characters. -/
inductive Item where
  | token (character : Token)
  | node (id : NodeId)
  deriving DecidableEq, Repr, Inhabited

/-- The state of an interpreter. -/
structure Engine where
  settings : Settings
  input : Input
  scopes : Scopes
  counters : Counters
  registers : Table Quantity
  references : References
  /-- The packages and classes that have been loaded, with their options. -/
  packages : Table (List String)
  /-- The names of the open environments, the innermost first. -/
  environments : List String
  /-- Whether the next assignment is global. -/
  globalNext : Bool
  /-- Whether the next definition is protected. -/
  protectedNext : Bool
  document : Document
  /-- The formulas that were opened by delimiters, the innermost first. -/
  mathStack : List String
  /-- The number of open lists, at most 255. -/
  listDepth : Nat
  /-- Nodes that were read too early, the last one first. -/
  buffer : List NodeId
  /-- The number of expansions since something was produced. -/
  expansions : Nat
  jobName : String
  files : Files
  /-- The elements of additional built-in packages. -/
  libraries : Table (List Element)
  date : Date
  /-- What has been reported. -/
  log : Array LogEntry
  deriving Inhabited

/-- Computations that change an engine and may fail. -/
abbrev TexM := EStateM TexError Engine

/-- The steps of interpretation that refer to each other, with the type of their
results. -/
inductive Task : Type → Type where
  /-- Expand a token with the given meaning, if it can be expanded; the result
  tells whether it could. -/
  | expand (token : Token) (command : Command) : Task Bool
  /-- Read the next item, if there is one. -/
  | nextItem : Task (Option Item)
  /-- Let a node take up the items that belong to it. -/
  | digest (node : NodeId) : Task Unit

/-- Something that performs tasks, and a bound on the number of steps of every
loop that asks it to. -/
structure Interpreter where
  limit : Nat
  run : {α : Type} → Task α → TexM α

namespace Engine

/-- End with a fault. -/
def fail {α : Type} (fault : Fault) : TexM α := throw { fault }

/-- Report something. -/
def report (entry : LogEntry) : TexM Unit :=
  modify fun engine => { engine with log := engine.log.push entry }

/-- Report several things. -/
def reportAll (entries : List LogEntry) : TexM Unit :=
  modify fun engine => { engine with log := engine.log ++ entries }

/-- Report something that was mended. -/
def warn (topic message : String) : TexM Unit := report (.warning topic message)

/-- Perform a computation and then a change of the engine, also if the
computation fails. -/
def ensuring {α : Type} (computation : TexM α) (change : Engine → Engine) : TexM α :=
  fun engine =>
    match computation engine with
    | .ok value engine' => .ok value (change engine')
    | .error error engine' => .error error (change engine')

/-! ## Input -/

/-- Read from the input. -/
def reading {α : Type} (read : CategoryTable → Input → α × Input) : TexM α :=
  modifyGet fun engine =>
    let (value, input) := read engine.scopes.categories engine.input
    (value, { engine with input })

/-- Read from the input, and fail if that is not possible. -/
def readingOrFail {α : Type} (read : CategoryTable → Input → Except Fault α × Input) :
    TexM α := do
  match ← reading read with
  | .ok value => return value
  | .error fault => fail fault

/-- The next token as it stands in the input. -/
def nextRaw : TexM (Option Token) := reading fun table input => input.next table

/-- The next token, which must be there for the named command. -/
def nextRawFor (command : String) : TexM Token := do
  match ← nextRaw with
  | some token => return token
  | none => fail (.inputEndedIn command)

/-- Put a token back. -/
def putBack (token : Token) : TexM Unit :=
  modify fun engine => { engine with input := engine.input.putBack token }

/-- Read the tokens next. -/
def pushTokens (tokens : List Token) : TexM Unit :=
  modify fun engine => { engine with input := engine.input.pushTokens tokens }

/-- Read a text next. -/
def pushText (text file : String) : TexM Unit :=
  modify fun engine => { engine with input := engine.input.pushText text file }

/-- Skip the spaces at the start of the input. -/
def skipSpaces : TexM Unit := reading fun table input => ((), input.skipSpaces table)

/-- The tokens of a group whose opening brace has been read. -/
def readGroup : TexM (List Token) :=
  readingOrFail fun table input =>
    match input.group table 0 with
    | (some tokens, rest) => (.ok tokens, rest)
    | (none, rest) => (.error .inputEnded, rest)

/-- The next argument and whether it stood in braces. -/
def readArgument : TexM (Option (List Token × Bool)) :=
  readingOrFail fun table input => input.argument table

/-- The next argument, which must be there for the named command. -/
def readArgumentFor (command : String) : TexM (List Token) := do
  match ← readArgument with
  | some (tokens, _) => return tokens
  | none => fail (.inputEndedIn command)

/-- The next argument in brackets. -/
def readBracketed (opening closing : Char) : TexM (Option (List Token)) :=
  readingOrFail fun table input => input.bracketed table opening closing

/-- The next argument in square brackets as a text. -/
def readBracketedText : TexM (Option String) := do
  let tokens ← readBracketed '[' ']'
  return tokens.map fun list => Text.trim (Token.displayList list)

/-- The next argument as a text. -/
def readName : TexM String := readingOrFail fun table input => input.nameArgument table

/-- Whether a star follows, which is read then. -/
def readStar : TexM Bool := do
  skipSpaces
  match ← nextRaw with
  | some token => if token.isChar '*' then return true else putBack token; return false
  | none => return false

/-- A control sequence, which may stand in braces. -/
def readControl : TexM Token := do
  skipSpaces
  match ← nextRaw with
  | none => fail .inputEnded
  | some token =>
      if token.category = .beginGroup then
        match (← readGroup).filter fun inner => inner.category != .space with
        | [] => fail .missingControl
        | [first] => return first
        | first :: _ =>
            warn "gullet"
              ("Ignoring tokens after \\" ++ first.text ++ " in control sequence argument")
            return first
      else return token

/-- The name of the control sequence that the named command defines. -/
def readDefinedName (command : String) : TexM String := do
  skipSpaces
  match ← nextRaw with
  | none => fail (.inputEndedIn command)
  | some token =>
      if token.isControl then return token.text
      else fail (.missingControlAfter command token)

/-! ## Meanings -/

/-- The command that a name is bound to. -/
def command? (name : String) : TexM (Option Command) := do return (← get).scopes.command? name

/-- Bind a name to a command. -/
def setCommand (name : String) (command : Command) (isGlobal : Bool) : TexM Unit :=
  modify fun engine => { engine with scopes := engine.scopes.setCommand name command isGlobal }

/-- The command that a name is bound to.  A name without one is reported outside
of formulas, and bound to a placeholder. -/
def lookup (name : String) : TexM Command := do
  let engine ← get
  match engine.scopes.command? name with
  | some command => return command
  | none =>
      if engine.settings.reportsUnrecognized && !engine.scopes.isMathMode then
        warn "context" ("unrecognized command/environment: " ++ name)
      modify fun engine => { engine with scopes := engine.scopes.bindPlaceholder name }
      return .unrecognized name

/-- Give a character a category. -/
def categorize (character : Char) (category : Category) (isGlobal : Bool) : TexM Unit :=
  modify fun engine =>
    { engine with scopes := engine.scopes.categorize character category isGlobal }

/-- Whether the next assignment is global, which it will not be again. -/
def takeGlobal : TexM Bool :=
  modifyGet fun engine => (engine.globalNext, { engine with globalNext := false })

/-- Whether the next definition is protected, which it will not be again. -/
def takeProtected : TexM Bool :=
  modifyGet fun engine => (engine.protectedNext, { engine with protectedNext := false })

/-- Start to count expansions anew. -/
def clearExpansions : TexM Unit := modify fun engine => { engine with expansions := 0 }

/-! ## Counters and registers -/

/-- Create a counter and its printed form, unless there is one with that name. -/
def createCounter (engine : Engine) (name : String) (resetBy : Option String) (value : Int) :
    Engine :=
  match engine.counters.create? name resetBy value with
  | none => engine
  | some counters =>
      { engine with
        counters
        scopes := engine.scopes.setCommand ("the" ++ name)
          (.printedCounter name (.ofCounter name)) true }

/-- Choose the printed form of a counter. -/
def setTemplate (engine : Engine) (name : String) (template : Template) : Engine :=
  { engine with
    scopes := engine.scopes.setCommand ("the" ++ name) (.printedCounter name template) true }

/-- The printed form of a counter, with reports of unknown counters in it.
Nothing if the command for it has got another meaning. -/
def printed? (engine : Engine) (name : String) : Option (String × List LogEntry) :=
  (engine.scopes.template? ("the" ++ name)).map fun template =>
    template.render engine.counters engine.scopes.template?

/-- The printed form of a counter. -/
def printCounter (name : String) : TexM (Option String) := do
  match (← get).printed? name with
  | none => return none
  | some (text, reports) =>
      reportAll reports
      return some text

/-- Change the counters; whether that was possible. -/
def changeCounters (change : Counters → Option Counters) : TexM Bool :=
  modifyGet fun engine =>
    match change engine.counters with
    | some counters => (true, { engine with counters })
    | none => (false, engine)

/-- Report that there is no counter with the given name. -/
def warnNoCounter (name : String) : TexM Unit :=
  warn "counters" ("No counter '" ++ name ++ "' defined")

/-- Allocate a register and bind its name to it. -/
def createRegister (engine : Engine) (name : String) (value : Quantity) : Engine :=
  { engine with
    registers := engine.registers.insert name value
    scopes := engine.scopes.setCommand name (.register name) true }

/-- Change the value of an allocated register. -/
def setRegister (engine : Engine) (name : String) (value : Quantity) : Engine :=
  if engine.registers.contains name then
    { engine with registers := engine.registers.insert name value }
  else engine

/-! ## The document -/

/-- Change the document. -/
def modifyDocument (change : Document → Document) : TexM Unit :=
  modify fun engine => { engine with document := change engine.document }

/-- A node of the document. -/
def nodeOf (id : NodeId) : TexM Node := do return (← get).document.node id

/-- Change a node of the document. -/
def modifyNode (id : NodeId) (change : Node → Node) : TexM Unit :=
  modifyDocument (·.modify id change)

/-- Add an element to the document. -/
def createElement (name : String) (level : Level) (mode : Mode) : TexM NodeId :=
  modifyGet fun engine =>
    let (id, document) := engine.document.createElement name level mode
    (id, { engine with document })

/-- Add a fragment to the document. -/
def createFragment : TexM NodeId :=
  modifyGet fun engine =>
    let (id, document) := engine.document.createFragment
    (id, { engine with document })

/-- Give an attribute of a node a value. -/
def setAttribute (id : NodeId) (name : String) (value : Value) : TexM Unit :=
  modifyDocument (·.setAttribute id name value)

/-- Append text to a node. -/
def appendText (id : NodeId) (text : String) : TexM Unit := modifyDocument (·.appendText id text)

/-- Append a node to another one. -/
def appendNode (parent child : NodeId) : TexM Unit := modifyDocument (·.append parent child)

/-- Record in a node how many scopes are open. -/
def recordDepth (id : NodeId) : TexM Unit :=
  modify fun engine =>
    { engine with
      document := engine.document.modify id fun node =>
        { node with depth := engine.scopes.depth } }

/-- Let the next label be attached to a node. -/
def setCurrentLabel (id : Option NodeId) : TexM Unit :=
  modify fun engine => { engine with references := { engine.references with current := id } }

/-! ## Scopes -/

/-- Open a scope. -/
def pushScope (owner : Option FrameOwner) (locals : List (String × Command)) : TexM Unit :=
  modify fun engine => { engine with scopes := engine.scopes.push owner locals }

/-- Close the scopes of an element that ends. -/
def popOwner (owner : FrameOwner) : TexM Unit :=
  modify fun engine => { engine with scopes := engine.scopes.popOwner owner none }

/-- Enter an environment. -/
def pushEnvironment (name : String) : TexM Unit :=
  modify fun engine => { engine with environments := name :: engine.environments }

/-- Leave an environment. -/
def popEnvironment : TexM Unit :=
  modify fun engine => { engine with environments := engine.environments.drop 1 }

end Engine

end TexTree
