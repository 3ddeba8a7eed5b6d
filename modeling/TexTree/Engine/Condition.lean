import TexTree.Engine.Number
import TexTree.Input.Branch

/-!
# Conditionals

The tests of the built-in conditionals, and the choice of a branch.
-/

namespace TexTree

namespace Scopes

/-- Whether a command starts a conditional. -/
def startsConditional : Command → Bool
  | .primitive _ (.condition _) => true
  | .primitive name _ => name == "ifcase"
  | .switch _ _ => true
  | _ => false

/-- Whether a control sequence starts a conditional.  A name without a meaning
does so if it looks like one. -/
def opensConditional (scopes : Scopes) (name : String) : Bool :=
  let looksLike := (Text.afterMark? "if" name).isSome && (scopes.alias? name).isNone
  match scopes.command? name with
  | none => looksLike
  | some command =>
      if command.isUnrecognized then looksLike else startsConditional command

/-- What a token means to the branches of a conditional. -/
def branchMark (scopes : Scopes) (token : Token) : Option BranchMark :=
  if !token.isControl then none
  else if scopes.opensConditional token.text then some .opening
  else
    match (scopes.command? token.text).bind Command.primitiveName? with
    | some "fi" => some .closing
    | some "else" => some .otherwise
    | some "or" => some .nextCase
    | _ => none

end Scopes

namespace Engine

/-- Read the branches of a conditional. -/
def readBranches : TexM Branches := do
  let mark := (← get).scopes.branchMark
  let branches ← reading fun table input => Branches.read mark table 0 false input
  if !branches.isClosed then warn "conditionals" "Input ended inside a conditional"
  return branches

/-- Go on with the branch for the outcome of a test. -/
def takeBranch (outcome : Bool) : TexM Unit := do
  let branches ← readBranches
  pushTokens ((branches.choose outcome).getD [])

/-- Go on with the branch that has a number. -/
def takeCase (number : Int) : TexM Unit := do
  let branches ← readBranches
  pushTokens ((branches.select number).getD [])

/-- Read a relation sign for the named command. -/
def readRelation (interpreter : Interpreter) (command : String) : TexM Ordering := do
  skipSpacesExpanded interpreter
  match ← unexpandable interpreter with
  | none => fail (.inputEndedIn command)
  | some (token, meaning) =>
      match meaning, token.category, token.text with
      | none, .other, "<" => return .lt
      | none, .other, "=" => return .eq
      | none, .other, ">" => return .gt
      | _, _, _ => fail (.missingRelation command token)

/-- Two tokens behind the named command that cannot be expanded. -/
def readTwoExpanded (interpreter : Interpreter) (command : String) : TexM (Token × Token) := do
  let next : TexM Token := do
    match ← unexpandable interpreter with
    | some (token, _) => return token
    | none => fail (.inputEndedIn command)
  return (← next, ← next)

/-- The character that a token is compared by; control sequences have none. -/
def comparedCharacter (token : Token) : Option Char :=
  match token.category with
  | .escape | .frozen | .endOfList => none
  | _ => token.char?

/-- The category that a token is compared by. -/
def comparedCategory (token : Token) : Category :=
  match token.category with
  | .escape | .frozen => if token.activeChar?.isSome then .active else .escape
  | .endOfList => .escape
  | category => category

/-- What a token means, as `\ifx` sees it. -/
inductive TokenMeaning where
  | character (category : Category) (text : String)
  | command (meaning : Command)
  | undefined

/-- Whether two meanings agree. -/
def TokenMeaning.same : TokenMeaning → TokenMeaning → Bool
  | .character category text, .character category' text' => category == category' && text == text'
  | .command left, .command right => left.same right
  | .undefined, .undefined => true
  | _, _ => false

/-- The meaning of a token. -/
def meaningOf (scopes : Scopes) (token : Token) : TokenMeaning :=
  if token.category = .escape ∨ token.category = .frozen then
    match scopes.alias? token.text with
    | some target => .character target.category target.text
    | none =>
        match scopes.command? token.text with
        | none => .undefined
        | some command => if command.isUnrecognized then .undefined else .command command
  else .character token.category token.text

/-- The outcome of a test whose conditional was started by the given token. -/
def testCondition (interpreter : Interpreter) (token : Token) : Condition → TexM Bool
  | .sameCharacter => do
      let (left, right) ← readTwoExpanded interpreter "if"
      return comparedCharacter left == comparedCharacter right
  | .sameCategory => do
      let (left, right) ← readTwoExpanded interpreter "ifcat"
      return comparedCategory left == comparedCategory right
  | .sameMeaning => do
      match ← nextRaw, ← nextRaw with
      | some left, some right =>
          let scopes := (← get).scopes
          return (meaningOf scopes left).same (meaningOf scopes right)
      | _, _ => fail (.inputEndedIn "ifx")
  | .integers => do
      let left ← readInteger interpreter
      let relation ← readRelation interpreter "ifnum"
      let right ← readInteger interpreter
      return compare left right == relation
  | .dimensions => do
      let left ← readDimension interpreter
      let relation ← readRelation interpreter "ifdim"
      let right ← readDimension interpreter
      return compare left.scaledPoints right.scaledPoints == relation
  | .parity => do
      let isOdd := (← readInteger interpreter) % 2 != 0
      return if token.isNamed "ifeven" then !isOdd else isOdd
  | .mode => do
      let inMath := (← get).scopes.isMathMode
      return match token.text with
        | "ifmmode" => inMath
        | "ifhmode" => !inMath
        | _ => false
  | .box => do
      let _ ← readInteger interpreter
      return token.text == "ifvoid" || token.text == "ifeof"
  | .always outcome => return outcome
  | .defined => do
      let found ← nextRawFor "ifdefined"
      return !found.isControl || (← get).scopes.isDefined found.text

end Engine

end TexTree
