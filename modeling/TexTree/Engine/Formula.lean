import TexTree.Engine.Element

/-!
# Groups, formulas and verbatim text

The commands that open and close groups and formulas, that set exponents and
indices, and that take text as it stands.
-/

namespace TexTree

namespace Engine

/-- Open a group. -/
def openGroup (token : Token) : TexM NodeId := do
  let name := if token.isNamed "begingroup" then "begingroup" else "bgroup"
  let node ← createElement name Level.command .plain
  modifyNode node fun inner => { inner with digest := .group }
  pushScope none []
  return node

/-- Close a group. -/
def closeGroup (token : Token) : TexM NodeId := do
  let name := if token.isNamed "endgroup" then "endgroup" else "egroup"
  if !(← get).scopes.hasOpenGroup then fail (.extraGroupEnd name)
  modify fun engine => { engine with scopes := engine.scopes.pop }
  createElement name Level.command .plain

/-- An environment for formulas. -/
def mathEnvironment (name : String) : Element :=
  { ElementOf.environment name [] with math := some true }

/-- Open a formula with a delimiter. -/
def openMath (interpreter : Interpreter) (token : Token) (name delimiter : String) :
    TexM NodeId := do
  modify fun engine => { engine with mathStack := name :: engine.mathStack }
  let node ← invokeElement interpreter (mathEnvironment name) token .opening
  modifyNode node fun inner => { inner with argumentSource := delimiter }
  return node

/-- Whether the innermost formula that was opened by a delimiter has the given
name. -/
def isInMath (engine : Engine) (name : String) : Bool := engine.mathStack.head? == some name

/-- Close a formula with a delimiter. -/
def closeMath (interpreter : Interpreter) (token : Token) (name : String) : TexM NodeId := do
  if !(← get).isInMath name then fail (.badMathDelimiter token)
  modify fun engine => { engine with mathStack := engine.mathStack.drop 1 }
  invokeElement interpreter (mathEnvironment name) token .closing

/-- Open or close a formula in a line or, with two characters, of its own. -/
def shiftMath (interpreter : Interpreter) (token : Token) : TexM NodeId := do
  if (← get).isInMath "math" then closeMath interpreter token "math"
  else
    let isDisplay ← do
      match ← nextRaw with
      | none => pure false
      | some next =>
          if next.category = .mathShift then pure true
          else
            putBack next
            pure false
    let name := if isDisplay then "displaymath" else "math"
    if (← get).isInMath name then closeMath interpreter token name
    else openMath interpreter token name (if isDisplay then "$$" else "$")

/-- Set an exponent or an index.  Outside of formulas the character stands for
itself. -/
def setScript (interpreter : Interpreter) (token : Token) : TexM (Option NodeId) := do
  let character := if token.text.toList.getLast? == some '_' then '_' else '^'
  if !(← get).scopes.isMathMode then
    putBack (.other character)
    return none
  match ← readArgument with
  | none => fail (.inputEndedIn (String.singleton character))
  | some (tokens, isBraced) =>
      let node ← createElement (Token.active character).text Level.command .plain
      let fragment ← toFragment interpreter tokens
      appendNode node fragment
      if isBraced then modifyNode node fun inner => { inner with contentForm := .braced }
      return some node

/-- A character, whatever its category, for the named command. -/
def readAnyChar (command : String) : TexM Char := do
  match ← reading fun _ input => input.readChar with
  | some character => return character
  | none => fail (.inputEndedIn command)

/-- Take the text between two copies of a character as it stands. -/
def takeVerbatim (token : Token) : TexM NodeId := do
  let first ← readAnyChar token.text
  let isStarred := first == '*'
  let delimiter ← if isStarred then readAnyChar token.text else pure first
  match ← reading fun _ input => input.readVerbatim (String.singleton delimiter) with
  | none => fail (.inputEndedIn token.text)
  | some text =>
      let node ← createElement "verb" Level.command .plain
      modifyNode node fun inner =>
        { inner with
          contentForm := .delimited delimiter
          argumentSource := if isStarred then "*" else "" }
      appendText node text
      return node

end Engine

end TexTree
