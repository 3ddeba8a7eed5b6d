import TexTree.Engine.Argument
import TexTree.Engine.Expandable

/-!
# Elements and environments

Invoking an element creates its node, opens its scope and reads its arguments.
The scope of an element that was opened by `\begin` stays open until the end of
the environment; that of any other one is closed at once.

An environment that was defined by the user becomes a node as well, with its code
in between.
-/

namespace TexTree

namespace Engine

/-- The counters of enumerations, the outermost first. -/
def enumerationCounters : List String := ["enumi", "enumii", "enumiii", "enumiv"]

/-- The greatest number of open lists that is counted. -/
def maxListDepth : Nat := 255

/-- Whether a scope belongs to an open environment with the given name. -/
def opensEnvironment (name : String) (owner : FrameOwner) : Bool :=
  owner.name == name && owner.mode == .opening

/-- The number of open enumerations. -/
def enumerationDepth (engine : Engine) : Nat :=
  engine.scopes.owners.countP (opensEnvironment "enumerate")

/-- Count a list that begins or ends.  The items of an enumeration, and of those
inside of it, are numbered anew. -/
def countList (node : NodeId) : Mode → TexM Unit
  | .opening => do
      let name := (← nodeOf node).name
      modify fun engine => { engine with listDepth := min (engine.listDepth + 1) maxListDepth }
      if name == "enumerate" then
        let depth := (← get).enumerationDepth
        for counter in enumerationCounters.drop (depth - 1) do
          let _ ← changeCounters (·.set? counter 0)
  | .closing => modify fun engine => { engine with listDepth := engine.listDepth - 1 }
  | .plain => return

/-- Let labels refer to a node, and give it the printed form of a counter as its
number. -/
def numberByCounter (node : NodeId) (counter : String) : TexM Unit := do
  setCurrentLabel (some node)
  let text ← printCounter counter
  modifyNode node fun inner => { inner with number := text }

/-- Number an item of an enumeration, unless it has a term. -/
def numberItem (node : NodeId) : TexM Unit := do
  let hasTerm := ((← nodeOf node).attribute? "term").any fun value => !value.isNone
  if !hasTerm then
    let depth := (← get).enumerationDepth
    let counter := enumerationCounters.getD (min (depth - 1) 3) "enumi"
    let _ ← changeCounters (·.step? counter)
    numberByCounter node counter

/-- Step the counter that the first argument names, and let labels refer to the
node. -/
def stepNamedCounter (node : NodeId) : TexM Unit := do
  match ((← nodeOf node).attribute? "counter").bind Value.text? with
  | none => return
  | some name =>
      if ← changeCounters (·.step? name) then numberByCounter node name
      else warnNoCounter name

/-- Read the body of a verbatim environment, and close it. -/
def readVerbatimBody (node : NodeId) : TexM Unit := do
  let name := (← nodeOf node).name
  let body ← reading fun _ input => input.readVerbatim ("\\end\x7b" ++ name ++ "\x7d")
  if body.isNone then warn "digest" ("Input ended inside environment " ++ name)
  let text := body.getD ""
  appendText node ((Text.afterMark? "\n" text).getD text)
  pushTokens [.endOfList ("end:" ++ name)]

/-- Do what is special to an element when its arguments have been read, or when it
ends. -/
def runHook (node : NodeId) (mode : Mode) : ElementHook → TexM Unit
  | .list => countList node mode
  | .enumerateItem => numberItem node
  | .document =>
      if mode = .closing then
        modify fun engine => { engine with input := engine.input.endInput }
      else return
  | .verbatim => if mode = .opening then readVerbatimBody node else return
  | .stepCounter => stepNamedCounter node

/-- Create the node at the end of an environment, and close its scope. -/
def closeEnvironment (name : String) : TexM NodeId := do
  let opener := (← get).scopes.owners.find? (opensEnvironment name)
  let node ← createElement name (opener.elim Level.environment FrameOwner.level) .closing
  popOwner { node := none, name, mode := .closing }
  popEnvironment
  recordDepth node
  return node

/-- Invoke an element with a token. -/
def invokeElement (interpreter : Interpreter) (element : Element) (token : Token)
    (mode : Mode) : TexM NodeId := do
  if mode = .closing then
    let node ← closeEnvironment element.name
    if let some hook := element.hook then runHook node .closing hook
    return node
  let node ← createElement element.name element.level mode
  modifyNode node fun inner =>
    { inner with
      digest := element.digest
      block := element.block
      position := token.position
      contentForm := if element.digest = .declaration then .declaration else inner.contentForm }
  for (name, value) in element.fixed do
    setAttribute node name value
  let owner : FrameOwner :=
    { node := some node, name := element.name, mode, level := element.level,
      math := element.math }
  pushScope (some owner) element.locals
  if mode = .opening then pushEnvironment element.name
  readElementArguments interpreter element node
  if let some hook := element.hook then runHook node mode hook
  if mode = .plain then popOwner owner
  recordDepth node
  return node

/-- The source of the arguments of a user environment.  An optional argument that
was left out is not written. -/
def callSource (rule : Definition) : List (List Token) → String
  | [] => ""
  | first :: rest =>
      let braced (tokens : List Token) : String :=
        "\x7b" ++ Token.sourceList tokens ++ "\x7d"
      let start := match rule.fallback with
        | none => braced first
        | some fallback =>
            if Token.sameList first fallback then "" else "[" ++ Token.sourceList first ++ "]"
      start ++ String.join (rest.map braced)

/-- Begin an environment that was defined by the user. -/
def beginUserEnvironment (name : String) (opening : Definition) (token : Token) :
    TexM NodeId := do
  let node ← createElement name Level.environment .opening
  modifyNode node fun inner =>
    { inner with digest := .environment, position := token.position }
  pushScope
    (some { node := some node, name, mode := .opening, level := Level.environment }) []
  pushEnvironment name
  let arguments ← readCall opening token
  modifyNode node fun inner => { inner with argumentSource := callSource opening arguments }
  pushTokens (opening.apply arguments)
  recordDepth node
  return node

/-- End an environment that was defined by the user: go on with its code, and with
a marker that creates the node at the end. -/
def endUserEnvironment (name : String) (closing : Option Definition) : TexM Unit := do
  let code ← match closing with
    | some rule => pure (rule.apply [])
    | none =>
        let own := "end" ++ name
        pure (if (← get).scopes.isDefined own then [Token.control own] else [])
  pushTokens (code ++ [.endOfList ("end:" ++ name)])

end Engine

end TexTree
