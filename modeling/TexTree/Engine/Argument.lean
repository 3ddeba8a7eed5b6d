import TexTree.Document.Source
import TexTree.Engine.Fragment
import TexTree.Engine.Number

/-!
# Arguments of elements

The arguments of an element are read as its specification says.  Each of them
becomes an attribute of the node, except for the content, which becomes the
children.  An element with a counter is numbered before its first argument, or
behind a modifier if that is left out.
-/

namespace TexTree

/-- Take the spaces off both ends of a token list. -/
def Token.trimSpaces (tokens : List Token) : List Token :=
  let isSpace (token : Token) : Bool := token.category == .space
  ((tokens.dropWhile isSpace).reverse.dropWhile isSpace).reverse

/-- Cut a token list at a character outside of groups, with so many groups
open. -/
def Token.splitFrom (delimiter : Char) : Nat → List Token → List (List Token)
  | _, [] => [[]]
  | depth, token :: rest =>
      let before (parts : List (List Token)) : List (List Token) :=
        match parts with
        | [] => [[token]]
        | first :: more => (token :: first) :: more
      match token.category with
      | .beginGroup => before (splitFrom delimiter (depth + 1) rest)
      | .endGroup => before (splitFrom delimiter (depth - 1) rest)
      | _ =>
          if depth = 0 ∧ token.isChar delimiter then [] :: splitFrom delimiter depth rest
          else before (splitFrom delimiter depth rest)

/-- The parts of a token list between the delimiters outside of groups, without
the spaces around them. -/
def Token.split (delimiter : Char) (tokens : List Token) : List (List Token) :=
  (Token.splitFrom delimiter 0 tokens).map Token.trimSpaces

namespace Engine

/-- Step the counter of an element, which is created if need be, and let labels
refer to the node. -/
def number (node : NodeId) (counter : String) : TexM Unit := do
  modify fun engine => engine.createCounter counter none 0
  let _ ← changeCounters (·.step? counter)
  setCurrentLabel (some node)

/-- Attach a label to the current node. -/
def attachLabel (label : String) : TexM Unit := do
  let reports ← modifyGet fun engine =>
    let (references, document, reports) := engine.references.attach engine.document label none
    (reports, { engine with references, document })
  reportAll reports

/-- Let an attribute of a node refer to a label. -/
def referTo (node : NodeId) (name label : String) : TexM Unit :=
  modify fun engine =>
    let (references, document) := engine.references.refer engine.document node name label
    { engine with references, document }

/-- Turn the tokens of an argument into a value of a type, in at most so many
nested steps. -/
def convertWithin (interpreter : Interpreter) (node : NodeId) (argument : Argument) :
    Nat → ArgumentType → List Token → TexM Value
  | 0, _, _ => fail .outOfFuel
  | steps + 1, type, tokens =>
      let itemType := argument.itemType.getD .text
      let items := (Token.split argument.delimiter tokens).filter fun item => !item.isEmpty
      match type with
      | .fragment => return .fragment (← toFragment interpreter tokens)
      | .text => return .text (Text.trim (← toText interpreter tokens))
      | .control =>
          match tokens.find? fun token => token.category != .space with
          | some token => return .token token
          | none => return .none
      | .label => do
          let label ← toText interpreter tokens
          attachLabel label
          return .text (Text.trim label)
      | .reference => do
          let label ← toText interpreter tokens
          referTo node argument.name label
          return ((← nodeOf node).attribute? argument.name).getD .none
      | .tokens | .untilBrace => return .tokens tokens
      | .address => return .text (Token.displayList tokens)
      | .list =>
          return .list (← items.mapM (convertWithin interpreter node argument steps itemType))
      | .dictionary => do
          let entries ← items.mapM fun item => do
            match Token.split '=' item with
            | [] => return ("", Value.bool true)
            | [key] => return (Text.trim (Token.displayList key), Value.bool true)
            | key :: parts =>
                let value ← convertWithin interpreter node argument steps itemType
                  ([Token.other '='].intercalate parts)
                return (Text.trim (Token.displayList key), value)
          return .dictionary entries
      | .dimensionGroup | .dimension =>
          return .dimension (← readingTokens tokens (readDimensionIn interpreter false))
      | .mathDimension =>
          return .dimension (← readingTokens tokens (readDimensionIn interpreter true))
      | .glue => return .glue (← readingTokens tokens (readGlue interpreter false))
      | .mathGlue => return .glue (← readingTokens tokens (readGlue interpreter true))
      | .integerGroup | .number => return .int (← readingTokens tokens (readInteger interpreter))
      | .floatGroup => return .float (← readingTokens tokens (readFloat interpreter))
      | .token =>
          match tokens with
          | token :: _ => return .token token
          | [] => return .none
      | .expandedToken => do
          match ← readingTokens tokens (unexpandable interpreter) with
          | some (token, _) => return .token token
          | none => return .none
      | .word => return .text (← toText interpreter tokens)

/-- Turn the tokens of an argument into a value of its type. -/
def convert (interpreter : Interpreter) (node : NodeId) (argument : Argument)
    (tokens : List Token) : TexM Value :=
  convertWithin interpreter node argument interpreter.limit argument.type tokens

/-- Read expanded tokens up to a space, after those that are given in reverse. -/
def readWordWithin (interpreter : Interpreter) : Nat → List Token → TexM (List Token)
  | 0, _ => fail .outOfFuel
  | steps + 1, read => do
      match ← unexpandable interpreter with
      | none => return read.reverse
      | some (token, _) =>
          match token.category with
          | .space => return read.reverse
          | .endOfList | .endGroup =>
              putBack token
              return read.reverse
          | _ => readWordWithin interpreter steps (token :: read)

/-- Read an argument whose type determines how far it goes. -/
def readDirect (interpreter : Interpreter) : ArgumentType → TexM Value
  | .dimension => return .dimension (← readDimensionIn interpreter false)
  | .mathDimension => return .dimension (← readDimensionIn interpreter true)
  | .glue => return .glue (← readGlue interpreter false)
  | .mathGlue => return .glue (← readGlue interpreter true)
  | .number => return .int (← readInteger interpreter)
  | .token => do
      match ← nextRaw with
      | some token => return .token token
      | none => fail .inputEnded
  | .expandedToken => do
      match ← unexpandable interpreter with
      | some (token, _) => return .token token
      | none => fail .inputEnded
  | .untilBrace => do
      let tokens ← reading fun table input =>
        input.untilToken table fun token =>
          token.category == .beginGroup || token.category == .endOfList
      return .tokens tokens
  | .word => do
      skipSpacesExpanded interpreter
      let tokens ← readWordWithin interpreter interpreter.limit []
      return .text (Token.displayList tokens)
  | _ => return .none

/-- Read an argument in which some special characters are ordinary ones. -/
def readAddress : TexM (Option (List Token × Bool)) :=
  readingOrFail fun table input =>
    input.argument
      (table.assignAll [('#', .other), ('~', .other), ('%', .other), ('&', .other)])

/-- Whether a token is one of the characters of a modifier. -/
def isModifier (characters : String) (token : Token) : Bool :=
  token.category != .escape && token.category != .endOfList &&
    match token.text.toList with
    | [character] => characters.toList.contains character
    | _ => false

/-- Read one token if the condition accepts it. -/
def readIf (condition : Token → Bool) : TexM (Option Token) := do
  skipSpaces
  match ← nextRaw with
  | none => return none
  | some token =>
      if condition token then return some token
      else
        putBack token
        return none

/-- The source of an argument. -/
def argumentSource (tokens : List Token) (isBraced : Bool) : String :=
  if isBraced then "\x7b" ++ Token.sourceList tokens ++ "\x7d" else Token.sourceList tokens

/-- Read one argument of an element.  Gives its source, and whether the element
was numbered behind it. -/
def readElementArgument (interpreter : Interpreter) (element : Element) (node : NodeId)
    (isFirst : Bool) (argument : Argument) : TexM (String × Bool) := do
  match argument.kind with
  | .modifier characters =>
      match ← readIf (isModifier characters) with
      | some token =>
          setAttribute node argument.name (.text token.text)
          return (token.text, false)
      | none =>
          let counter := if isFirst then element.counter else none
          if let some name := counter then number node name
          setAttribute node argument.name .none
          return ("", counter.isSome)
  | .equals =>
      match ← readIf fun token => token.category == .other && token.text == "=" with
      | some _ =>
          setAttribute node argument.name (.bool true)
          return ("=", false)
      | none =>
          setAttribute node argument.name .none
          return ("", false)
  | .bracketed opening closing =>
      match ← readBracketed opening closing with
      | none =>
          setAttribute node argument.name .none
          return ("", false)
      | some tokens =>
          let value ← convert interpreter node argument tokens
          setAttribute node argument.name value
          let source := String.singleton opening ++ Token.sourceList tokens ++
            String.singleton closing
          return (source, false)
  | .required =>
      if argument.type.isDirect then
        let value ← readDirect interpreter argument.type
        let source := (← get).document.valueText value
        setAttribute node argument.name value
        return (source, false)
      else
        let found ← if argument.type = .address then readAddress else readArgument
        match found with
        | none => fail (.missingArgument argument.name element.name)
        | some (tokens, isBraced) =>
            let value ← convert interpreter node argument tokens
            setAttribute node argument.name value
            return (argumentSource tokens isBraced, false)
  | .content =>
      match ← readArgument with
      | none => fail (.missingContent element.name)
      | some (tokens, _) =>
          let fragment ← toFragment interpreter tokens
          appendNode node fragment
          modifyNode node fun inner => { inner with contentForm := .braced }
          return ("", false)

/-- Read the remaining arguments of an element. -/
def readElementArgumentsFrom (interpreter : Interpreter) (element : Element) (node : NodeId)
    (isFirst : Bool) : List Argument → TexM (String × Bool)
  | [] => return ("", false)
  | argument :: rest => do
      let (source, numbered) ← readElementArgument interpreter element node isFirst argument
      let (sources, numberedLater) ←
        readElementArgumentsFrom interpreter element node false rest
      return (source ++ sources, numbered || numberedLater)

/-- Whether the first argument is a modifier. -/
def startsWithModifier (arguments : List Argument) : Bool :=
  match arguments with
  | ⟨_, .modifier _, _, _, _⟩ :: _ => true
  | _ => false

/-- Read the arguments of an element, and number it if it has a counter. -/
def readElementArguments (interpreter : Interpreter) (element : Element) (node : NodeId) :
    TexM Unit := do
  let counter :=
    if startsWithModifier element.arguments then none else element.counter
  if let some name := counter then number node name
  let (source, numbered) ←
    readElementArgumentsFrom interpreter element node true element.arguments
  if counter.isSome || numbered then
    if let some name := element.counter then
      let text ← printCounter name
      modifyNode node fun inner => { inner with number := text }
  modifyNode node fun inner => { inner with argumentSource := source }

end Engine

end TexTree
