import TexTree.Engine.Element

/-!
# User commands, environments and counters

The commands that define commands and environments with plain arguments, begin
and end environments, and create and change counters.
-/

namespace TexTree

namespace Engine

/-- The number of arguments in brackets, for the named command. -/
def readArity (interpreter : Interpreter) (command : String) : TexM Nat := do
  match ← readBracketed '[' ']' with
  | none => return 0
  | some tokens =>
      let count ← readingTokens tokens (readInteger interpreter)
      if 0 ≤ count ∧ count ≤ 9 then return count.toNat
      else fail (.illegalArity count command)

/-- A definition with plain parameters. -/
def makeDefinition (name : String) (arity : Nat) (fallback : Option (List Token))
    (body : List Token) : TexM Definition := do
  let (rule, reports) := Definition.ofCommand name arity fallback body
  reportAll reports
  return rule

/-- Whether the user may give a command another meaning.  Built-in commands are
kept. -/
def isRedefinable : Option Command → Bool
  | none => true
  | some (.definition _) | some (.unrecognized _) | some (.printedCounter _ _) => true
  | some command => command.primitiveName? == some "relax"

/-- Define a command with plain parameters. -/
def createCommand (interpreter : Interpreter) (token : Token) : TexM Unit := do
  let _ ← readStar
  let control ← readControl
  if !control.isControl then fail (.missingControlAfter token.text control)
  let arity ← readArity interpreter token.text
  let fallback ← readBracketed '[' ']'
  let body ← readArgumentFor token.text
  let name := control.text
  let scopes := (← get).scopes
  if token.isNamed "providecommand" && scopes.isDefined name then return
  if isRedefinable (scopes.command? name) then
    let rule ← makeDefinition name arity fallback body
    setCommand name (.definition rule) true
  else
    report (.info "expansion" ("\\" ++ token.text ++ ": keeping the built-in \\" ++ name))

/-- Whether the user may give an environment another meaning. -/
def isReplaceable : Option Command → Bool
  | none => true
  | some (.environment _ _ _) | some (.definition _) | some (.unrecognized _) => true
  | some _ => false

/-- Define an environment. -/
def createEnvironment (interpreter : Interpreter) (token : Token) : TexM Unit := do
  let _ ← readStar
  let name ← readName
  let arity ← readArity interpreter token.text
  let fallback ← readBracketed '[' ']'
  let opening ← readArgumentFor token.text
  let closing ← readArgumentFor token.text
  if isReplaceable (← command? name) then
    let openingRule ← makeDefinition name arity fallback opening
    let closingRule ← makeDefinition ("end" ++ name) 0 none closing
    setCommand name (.environment name openingRule closingRule) true
  else
    report (.info "expansion"
      ("\\" ++ token.text ++ ": keeping the built-in environment " ++ name))

/-- Begin the environment that an argument names. -/
def beginEnvironment (interpreter : Interpreter) (token : Token) : TexM NodeId := do
  let name ← readName
  if name.isEmpty then fail .missingEnvironmentName
  let control : Token := { Token.control name with position := token.position }
  match ← lookup name with
  | .element element =>
      let environment :=
        if element.isEnvironment then element
        else { element with isEnvironment := true, digest := .environment }
      invokeElement interpreter environment token .opening
  | .environment own opening _ => beginUserEnvironment own opening control
  | .definition rule => beginUserEnvironment name rule control
  | .unrecognized _ => invokeElement interpreter (.environment name []) token .opening
  | _ =>
      let node ← invokeElement interpreter (.environment name []) token .opening
      putBack control
      return node

/-- End the environment that an argument names. -/
def endEnvironment (interpreter : Interpreter) (token : Token) : TexM (Option NodeId) := do
  let name ← readName
  let scopes := (← get).scopes
  if !scopes.owners.any (opensEnvironment name) then fail (.unmatchedEnd name)
  match scopes.command? name with
  | some (.element element) =>
      if element.isEnvironment then
        return some (← invokeElement interpreter element token .closing)
      else
        endUserEnvironment name none
        return none
  | some (.environment _ _ closing) =>
      endUserEnvironment name (some closing)
      return none
  | _ =>
      endUserEnvironment name none
      return none

/-- A counter can be subordinate only to one that exists and is not subordinate to
it. -/
def checkSuperior (name : String) (superior : Option String) : TexM Unit := do
  match superior with
  | none => return
  | some above =>
      let counters := (← get).counters
      if !counters.contains above then fail (.unknownCounter above)
      if counters.wouldCycle name above then fail (.cyclicCounter name above)

/-- Create the counter that an argument names. -/
def createNamedCounter : TexM Unit := do
  let name ← readName
  let superior ← readBracketedText
  if (← get).counters.contains name then
    warn "counters" ("Counter " ++ name ++ " already defined")
  else
    checkSuperior name superior
    modify fun engine => engine.createCounter name superior 0

/-- Set a counter to the value in an argument, or add that value to it. -/
def setCounter (interpreter : Interpreter) (token : Token) : TexM Unit := do
  let name ← readName
  let tokens ← readArgumentFor token.text
  let value ← readingTokens tokens (readInteger interpreter)
  let isAdding := token.isNamed "addtocounter"
  let found ← changeCounters fun counters =>
    if isAdding then counters.add? name value else counters.set? name value
  if !found then warnNoCounter name

/-- Step the counter that an argument names. -/
def stepCounter : TexM Unit := do
  let name ← readName
  if !(← changeCounters (·.step? name)) then warnNoCounter name

/-- Create an environment for theorems, which shares a counter or has its own. -/
def createTheorem (interpreter : Interpreter) (token : Token) : TexM Unit := do
  let isNumbered := !(← readStar)
  let name ← readName
  let shared ← readBracketedText
  let caption ← toText interpreter (← readArgumentFor token.text)
  let superior ← readBracketedText
  if isNumbered && shared.isNone then
    checkSuperior name superior
    modify fun engine =>
      let created := engine.createCounter name superior 0
      superior.elim created fun above => created.setTemplate name (.within above name)
  let title : Argument := ⟨"title", .bracketed '[' ']', .fragment, ',', none⟩
  let element : Element :=
    { ElementOf.environment name [title] with
      block := true
      counter := if isNumbered then some (shared.getD name) else none
      fixed := [("caption", .text (Text.trim caption))] }
  setCommand name (.element element) true

end Engine

end TexTree
