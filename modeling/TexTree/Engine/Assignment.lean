import TexTree.Engine.Expandable

/-!
# Definitions and assignments

The commands that define control sequences, give characters categories, and
allocate and change registers.
-/

namespace TexTree

namespace Engine

/-- Read the parameter text and the replacement text of a definition.  The
replacement text may be expanded first. -/
def readDefinition (interpreter : Interpreter) (name : String) (expanded : Bool) :
    TexM Definition := do
  let (parameters, opening) ← reading fun table input =>
    let (tokens, last, rest) :=
      input.throughToken table fun token => token.category == .beginGroup
    ((tokens, last), rest)
  if opening.isNone then fail (.inputEndedIn name)
  let parameters :=
    if parameters.getLast?.any Definition.isParameter then parameters.dropLast else parameters
  let read ← readGroup
  let body ← if expanded then expandFully interpreter read else pure read
  let isDoubled := Definition.hasDoubled parameters
  let normal (tokens : List Token) : List Token :=
    if isDoubled then Definition.normalize tokens else tokens
  let isProtected ← takeProtected
  let (signature, signatureReports) := Definition.signatureOf (normal parameters)
  let (items, bodyReports) := Definition.bodyOf (normal body)
  reportAll (signatureReports ++ bodyReports)
  return { name, origin := .parameterText, signature, fallback := none, body := items,
           isProtected }

/-- Define a control sequence. -/
def define (interpreter : Interpreter) (command : String) (expanded isGlobal : Bool) :
    TexM Unit := do
  let chosen ← takeGlobal
  let name ← readDefinedName command
  let rule ← readDefinition interpreter name expanded
  setCommand name (.definition rule) (isGlobal || chosen)

/-- Give a control sequence the meaning of a token. -/
def letToken (name : String) (source : Token) (isGlobal : Bool) : TexM Unit :=
  modify fun engine => { engine with scopes := engine.scopes.letToken name source isGlobal }

/-- Give a control sequence the meaning of the token behind an optional equals
sign with at most one space behind it. -/
def letMeaning : TexM Unit := do
  let isGlobal ← takeGlobal
  let name ← readDefinedName "let"
  skipSpaces
  let first ← nextRawFor "let"
  let source ←
    if first.category = .other && first.text == "=" then
      let second ← nextRawFor "let"
      if second.category = .space then nextRawFor "let" else pure second
    else pure first
  letToken name source isGlobal

/-- Give a control sequence the meaning of the next token but one, and go on with
both tokens. -/
def letNextMeaning : TexM Unit := do
  let isGlobal ← takeGlobal
  let name ← readDefinedName "futurelet"
  match ← nextRaw, ← nextRaw with
  | some first, some second =>
      letToken name second isGlobal
      pushTokens [first, second]
  | _, _ => fail (.inputEndedIn "futurelet")

/-- Define a control sequence as a character. -/
def defineCharacter (interpreter : Interpreter) (token : Token) : TexM Unit := do
  let isGlobal ← takeGlobal
  let inMath := token.isNamed "mathchardef"
  let name ← readDefinedName token.text
  skipEquals interpreter
  let number ← readInteger interpreter
  match Text.characterOf? (if inMath then number % 256 else number) with
  | none =>
      warn "commands" ("Bad character code (" ++ toString number ++ ") for \\" ++ name)
  | some value =>
      setCommand name (if inMath then .mathCharacter value else .character value) isGlobal

/-- Go on with the character that has a code. -/
def putCharacter (interpreter : Interpreter) : TexM Unit := do
  let number ← readInteger interpreter
  match Text.characterOf? number with
  | some value => putBack (.other value)
  | none => warn "commands" ("Bad character code (" ++ toString number ++ ")")

/-- Give a character a category by its code. -/
def assignCategory (interpreter : Interpreter) : TexM Unit := do
  let isGlobal ← takeGlobal
  let number ← readInteger interpreter
  skipEquals interpreter
  let code ← readInteger interpreter
  match Text.characterOf? number with
  | none => fail (.badCharacterCode number)
  | some character =>
      match if code < 0 then none else Category.ofCode? code.toNat with
      | none => fail (.badCategoryCode code)
      | some category => categorize character category isGlobal

/-- Allocate a register of the kind that the token names. -/
def allocateRegister (token : Token) : TexM Unit := do
  let name ← readDefinedName token.text
  let value : Quantity := match token.text with
    | "newcount" => .count 0
    | "newdimen" => .dimen ⟨0⟩
    | "newmuskip" => .muskip .zero
    | _ => .skip .zero
  modify fun engine => engine.createRegister name value

/-- Give a register a value. -/
def assignRegister (interpreter : Interpreter) (name : String) : TexM Unit := do
  let _ ← takeGlobal
  match (← get).registers.get? name with
  | none => fail (.unallocatedRegister name)
  | some old =>
      skipEquals interpreter
      let value ← readQuantity interpreter old
      modify fun engine => engine.setRegister name value

/-- The register that a token names for arithmetic, with its value. -/
def readRegister (interpreter : Interpreter) (command : String) : TexM (String × Quantity) := do
  match ← unexpandable interpreter with
  | none => fail (.inputEndedIn command)
  | some (_, some (.register name)) =>
      match (← get).registers.get? name with
      | some value => return (name, value)
      | none => fail (.unallocatedRegister name)
  | some (token, _) => fail (.unusableBehind token command)

/-- The result of the arithmetic that a token asks for on the value of a named
register. -/
def arithmeticResult (interpreter : Interpreter) (token : Token) (name : String)
    (old : Quantity) : TexM Quantity := do
  match token.text with
  | "advance" => return old.add (← readQuantity interpreter old)
  | "multiply" =>
      let factor ← readInteger interpreter
      match old.multiply? factor with
      | some value => return value
      | none => fail (.productOverflow name factor)
  | _ =>
      let divisor ← readInteger interpreter
      if divisor = 0 then fail (.divisionByZero name)
      match old.divide? divisor with
      | some value => return value
      | none => fail (.quotientOverflow name divisor)

/-- Do arithmetic on a register. -/
def doArithmetic (interpreter : Interpreter) (token : Token) : TexM Unit := do
  let _ ← takeGlobal
  let (name, old) ← readRegister interpreter token.text
  let _ ← readKeyword interpreter "by"
  let value ← arithmeticResult interpreter token name old
  modify fun engine => engine.setRegister name value

/-- Set a register to the value in an argument, or add that value to it. -/
def setLength (interpreter : Interpreter) (token : Token) : TexM Unit := do
  let register ← readControl
  match (← get).registers.get? register.text with
  | none => fail (.notLength register.text)
  | some old =>
      let tokens ← readArgumentFor token.text
      let value ← readingTokens tokens (readQuantity interpreter old)
      let result := if token.isNamed "addtolength" then old.add value else value
      modify fun engine => engine.setRegister register.text result

/-- Create a conditional and the commands that switch it. -/
def createSwitch : TexM Unit := do
  let name ← readDefinedName "newif"
  match Text.afterMark? "if" name with
  | none => warn "commands" ("\\newif: \\" ++ name ++ " does not start with 'if'")
  | some base =>
      setCommand name (.switch name false) true
      setCommand (base ++ "true") (.switchSetter name true) true
      setCommand (base ++ "false") (.switchSetter name false) true

end Engine

end TexTree
