import TexTree.Engine.Condition
import TexTree.Input.Call

/-!
# Expandable commands

What each expandable command is replaced by.  Every expansion is counted; a chain
of expansions that produces nothing ends at the limit that the settings name.
-/

namespace TexTree

/-- The names of the months. -/
def Date.monthNames : List String :=
  ["January", "February", "March", "April", "May", "June", "July", "August", "September",
    "October", "November", "December"]

/-- A year in at least four digits, with a sign if it has more or is negative. -/
def Date.yearText (year : Int) : String :=
  let digits := toString year.natAbs
  let padded := String.ofList (List.replicate (4 - digits.length) '0') ++ digits
  if year < 0 then "-" ++ padded else if year > 9999 then "+" ++ padded else padded

/-- The day as it is printed. -/
def Date.text (date : Date) : String :=
  Date.monthNames.getD (date.month - 1) "" ++ " " ++ toString date.day ++ ", " ++
    Date.yearText date.year

namespace Engine

/-- Collect the name of a control sequence up to the command that ends it. -/
def controlNameWithin (interpreter : Interpreter) : Nat → String → TexM String
  | 0, _ => fail .outOfFuel
  | steps + 1, read => do
      match ← unexpandable interpreter with
      | none => fail (.inputEndedIn "csname")
      | some (token, command) =>
          if (command.bind Command.primitiveName?) = some "endcsname" then return read
          else if token.isControl then fail (.missingNameEnd token.text)
          else controlNameWithin interpreter steps (read ++ token.text)

/-- The control sequence with a name that is spelled out.  If it has no meaning,
it gets that of `\relax` in the current scope. -/
def namedControl (interpreter : Interpreter) : TexM Token := do
  let name ← controlNameWithin interpreter interpreter.limit ""
  let scopes := (← get).scopes
  if !scopes.isDefined name then
    match scopes.command? "relax" with
    | some relax => setCommand name relax false
    | none => pure ()
  return .control name

/-- The characters of a token. -/
def spellingOf (token : Token) : List Token :=
  if token.isControl then Token.ofPlainText (token.activeChar?.getD ("\\" ++ token.text))
  else Token.ofPlainText token.text

/-- The next token, marked so that it is not expanded. -/
def frozenToken : TexM Token := do
  let token ← nextRawFor "noexpand"
  let isExpandable := ((← get).scopes.command? token.text).any Command.isExpandable
  return if token.isControl && isExpandable then { token with category := .frozen } else token

/-- The next token, after the one behind it has been expanded. -/
def expandedBehind (interpreter : Interpreter) : TexM (List Token) := do
  let first ← nextRawFor "expandafter"
  match ← nextToken with
  | none => fail (.inputEndedIn "expandafter")
  | some second =>
      match second.commandName?.bind (← get).scopes.command? with
      | none => return [first, second]
      | some command =>
          if ← interpreter.run (.expand second command) then return [first]
          else return [first, second]

/-- The value of the register or code that follows, as a text. -/
def internalValue (interpreter : Interpreter) : TexM (Option String) := do
  match ← unexpandable interpreter with
  | none => fail (.inputEndedIn "the")
  | some (token, command) =>
      match command with
      | some (.register name) => return ((← get).registers.get? name).map Quantity.text
      | some (.character value) | some (.mathCharacter value) =>
          return some (toString value.toNat)
      | _ =>
          if (command.bind Command.primitiveName?) = some "catcode" then
            let number ← readInteger interpreter
            let categories := (← get).scopes.categories
            let category := (Text.characterOf? number).elim .other categories.category
            return some (toString category.code)
          else
            warn "commands" ("You can't use " ++ token.display ++ " after \\the")
            return none

/-- The meaning of a character in words. -/
def characterMeaning (token : Token) : String :=
  let kind := match token.category with
    | .beginGroup => "begin-group character"
    | .endGroup => "end-group character"
    | .mathShift => "math shift character"
    | .alignmentTab => "alignment tab character"
    | .parameter => "macro parameter character"
    | .superscript => "superscript character"
    | .subscript => "subscript character"
    | .space => "blank space"
    | .letter => "the letter"
    | _ => "the character"
  kind ++ " " ++ token.text

/-- The meaning of a token in words. -/
def meaningText (scopes : Scopes) (token : Token) : String :=
  if token.isControl then
    match scopes.alias? token.text, scopes.command? token.text with
    | some target, _ => characterMeaning target
    | none, some command => command.meaning token.text
    | none, none => "undefined"
  else characterMeaning token

/-- The tokens that a built-in expandable command is replaced by. -/
def expansionOf (interpreter : Interpreter) (token : Token) : Expansion → TexM (List Token)
  | .namedControl => return [← namedControl interpreter]
  | .spelling => return spellingOf (← nextRawFor "string")
  | .frozenToken => return [← frozenToken]
  | .expandedBehind => expandedBehind interpreter
  | .internalValue => do
      let value ← internalValue interpreter
      return value.elim [] Token.ofPlainText
  | .integer => return Token.ofPlainText (toString (← readInteger interpreter))
  | .romanNumeral => return Token.ofPlainText (Numeral.roman (← readInteger interpreter))
  | .jobName => return Token.ofPlainText (← get).jobName
  | .meaningOfToken => do
      let found ← nextRawFor "meaning"
      return Token.ofPlainText (meaningText (← get).scopes found)
  | .branch => do
      takeCase (← readInteger interpreter)
      return []
  | .nothing => return []
  | .counterValue => do
      let name ← readName
      match (← get).counters.value? name with
      | some value => return Token.ofPlainText (toString value)
      | none =>
          warnNoCounter name
          return Token.ofPlainText "0"
  | .counterStyle => do
      let name ← readName
      match ((← get).counters.get? name).bind (·.format? token.text) with
      | some text => return Token.ofText text
      | none =>
          warnNoCounter name
          return []
  | .date => return Token.ofText (← get).date.text
  | .fixed tokens => return tokens

/-- Read the arguments of a call of a definition. -/
def readCall (rule : Definition) (token : Token) : TexM (List (List Token)) :=
  readingOrFail fun table input => rule.readArguments table token.text input

/-- What a call of a definition is replaced by. -/
def callDefinition (rule : Definition) (token : Token) : TexM (List Token) := do
  return rule.apply (← readCall rule token)

/-- Count an expansion of a token, and fail at the limit. -/
def countExpansion (token : Token) : TexM Unit := do
  modify fun engine => { engine with expansions := engine.expansions + 1 }
  let engine ← get
  if engine.expansions > engine.settings.expansionLimit then
    fail (.runaway token engine.settings.expansionLimit)

/-- Expand a token with the given meaning, if it can be expanded. -/
def expandCommand (interpreter : Interpreter) (token : Token) (command : Command) :
    TexM Bool := do
  if !command.isExpandable then return false
  countExpansion token
  match command with
  | .primitive _ (.expansion result) => pushTokens (← expansionOf interpreter token result)
  | .primitive _ (.condition test) => takeBranch (← testCondition interpreter token test)
  | .definition rule => pushTokens (← callDefinition rule token)
  | .switch _ state => takeBranch state
  | .printedCounter counter _ =>
      let text ← printCounter counter
      pushTokens (Token.ofText (text.getD ""))
  | _ => pure ()
  return true

end Engine

end TexTree
