import TexTree.Engine.Basic

/-!
# Reading with expansion

Numbers, keywords and file names are read token by token, where every token that
can be expanded is replaced by its expansion first.  A token list can also be
expanded completely, as for a definition with an expanded replacement text.

A token list that is read in place of the input ends with a marker, behind which
the reader does not go.
-/

namespace TexTree

namespace Engine

/-- The next token, where an alias of a character stands for that character. -/
def nextToken : TexM (Option Token) := do
  match ← nextRaw with
  | none => return none
  | some token =>
      if token.isControl then
        match (← get).scopes.alias? token.text with
        | some target => return some (target.at? token.position)
        | none => return some token
      else return some token

/-- The next token that cannot be expanded, after at most so many expansions. -/
def unexpandableWithin (interpreter : Interpreter) : Nat → TexM (Option (Token × Option Command))
  | 0 => fail .outOfFuel
  | steps + 1 => do
      match ← nextToken with
      | none => return none
      | some token =>
          if token.isControl then
            match ← command? token.text with
            | none =>
                clearExpansions
                return some (token, none)
            | some command =>
                if ← interpreter.run (.expand token command) then
                  unexpandableWithin interpreter steps
                else
                  clearExpansions
                  return some (token, some command)
          else return some (token, none)

/-- The next token that cannot be expanded, with its meaning if it is a control
sequence. -/
def unexpandable (interpreter : Interpreter) : TexM (Option (Token × Option Command)) :=
  unexpandableWithin interpreter interpreter.limit

/-- Skip spaces, expanding what stands before and between them. -/
def skipSpacesWithin (interpreter : Interpreter) : Nat → TexM Unit
  | 0 => fail .outOfFuel
  | steps + 1 => do
      match ← unexpandable interpreter with
      | none => return
      | some (token, _) =>
          if token.category = .space then skipSpacesWithin interpreter steps
          else putBack token

/-- Skip spaces, expanding what stands before and between them. -/
def skipSpacesExpanded (interpreter : Interpreter) : TexM Unit :=
  skipSpacesWithin interpreter interpreter.limit

/-- Skip at most one space. -/
def skipOneSpace (interpreter : Interpreter) : TexM Unit := do
  match ← unexpandable interpreter with
  | none => return
  | some (token, _) => if token.category ≠ .space then putBack token

/-- Skip spaces and at most one equals sign. -/
def skipEquals (interpreter : Interpreter) : TexM Unit := do
  skipSpacesExpanded interpreter
  match ← unexpandable interpreter with
  | none => return
  | some (token, command) =>
      if !(command.isNone && token.category = .other && token.text == "=") then putBack token

/-- Whether the token is a letter of a keyword, in either case. -/
def spells (token : Token) (character : Char) : Bool :=
  (token.category == .letter || token.category == .other) &&
    match token.text.toList with
    | [found] => found.toLower == character.toLower
    | _ => false

/-- Read the given characters of a keyword.  The tokens of the characters before
them are given in reverse; they are put back if the keyword does not go on. -/
def readKeywordFrom (interpreter : Interpreter) (read : List Token) : List Char → TexM Bool
  | [] => return true
  | character :: rest => do
      match ← unexpandable interpreter with
      | none =>
          pushTokens read.reverse
          return false
      | some (token, command) =>
          if command.isNone && spells token character then
            readKeywordFrom interpreter (token :: read) rest
          else
            pushTokens (token :: read).reverse
            return false

/-- Whether a keyword follows, which is read then, with one space behind it. -/
def readKeyword (interpreter : Interpreter) (keyword : String) : TexM Bool := do
  skipSpacesExpanded interpreter
  if ← readKeywordFrom interpreter [] keyword.toList then
    skipOneSpace interpreter
    return true
  else return false

/-- Expand everything up to the marker, after the tokens that are given in
reverse. -/
def expandFullyWithin (interpreter : Interpreter) : Nat → List Token → TexM (List Token)
  | 0, _ => fail .outOfFuel
  | steps + 1, read => do
      match ← nextRaw with
      | none => fail .inputEnded
      | some token =>
          match token.category with
          | .endOfList =>
              if token.text == "expand" then
                clearExpansions
                return read.reverse
              else expandFullyWithin interpreter steps read
          | .frozen => expandFullyWithin interpreter steps (.control token.text :: read)
          | .escape =>
              let scopes := (← get).scopes
              match scopes.alias? token.text, scopes.command? token.text with
              | none, some command =>
                  let isKept := match command with
                    | .definition rule => rule.isProtected
                    | _ => false
                  if isKept then expandFullyWithin interpreter steps (token :: read)
                  else if ← interpreter.run (.expand token command) then
                    expandFullyWithin interpreter steps read
                  else expandFullyWithin interpreter steps (token :: read)
              | _, _ => expandFullyWithin interpreter steps (token :: read)
          | _ => expandFullyWithin interpreter steps (token :: read)

/-- Expand a token list completely.  Protected definitions, names without a
meaning and commands that cannot be expanded stay as they are. -/
def expandFully (interpreter : Interpreter) (tokens : List Token) : TexM (List Token) := do
  pushTokens (tokens ++ [.endOfList "expand"])
  expandFullyWithin interpreter interpreter.limit []

/-- Read the characters of a file name up to a space. -/
def readFileNameWithin (interpreter : Interpreter) : Nat → String → TexM String
  | 0, _ => fail .outOfFuel
  | steps + 1, read => do
      match ← unexpandable interpreter with
      | none => return read
      | some (token, command) =>
          match token.category, command with
          | .letter, none | .other, none =>
              readFileNameWithin interpreter steps (read ++ token.text)
          | .space, _ => return read
          | _, _ =>
              putBack token
              return read

/-- A file name, in braces or up to a space. -/
def readFileName (interpreter : Interpreter) : TexM String := do
  skipSpacesExpanded interpreter
  match ← unexpandable interpreter with
  | none => fail .inputEnded
  | some (token, _) =>
      if token.category = .beginGroup then
        let tokens ← expandFully interpreter (← readGroup)
        return Text.trim (Token.displayList tokens)
      else
        putBack token
        readFileNameWithin interpreter interpreter.limit ""

/-- Drop what is left of a token list, with a report unless it is blank. -/
def dropRest (engine : Engine) : Engine :=
  let (rest, _, input) := engine.input.throughToken engine.scopes.categories fun token =>
    token.category == .endOfList && token.text == "cast"
  let dropped := { engine with input }
  if rest.any fun token => token.category != .space then
    { dropped with
      log := dropped.log.push
        (.warning "gullet" ("Ignoring trailing tokens: " ++ Token.displayList rest)) }
  else dropped

/-- Perform a computation that reads a token list in place of the input.  What it
does not read is dropped. -/
def readingTokens {α : Type} (tokens : List Token) (computation : TexM α) : TexM α := do
  pushTokens (tokens ++ [.endOfList "cast"])
  ensuring computation dropRest

end Engine

end TexTree
