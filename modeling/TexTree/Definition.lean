import TexTree.Log
import TexTree.Text.Span
import TexTree.Token

/-!
# Definitions

A definition has a parameter text and a replacement text.  Both are token lists
in which a parameter character and a digit stand for an argument; in the
replacement text a doubled parameter character stands for a single one.

A definition that is written with all its parameter characters doubled, as it
happens inside of other definitions, is normalized first.
-/

namespace TexTree

/-- A part of a parameter text or of a replacement text. -/
inductive DefinitionItem where
  | parameter (number : Nat)
  | token (token : Token)
  deriving DecidableEq, Repr, Inhabited

namespace DefinitionItem

/-- Whether two items are the same parameter or the same token, wherever it
stands. -/
def same : DefinitionItem → DefinitionItem → Bool
  | .parameter left, .parameter right => left == right
  | .token left, .token right => left.same right
  | _, _ => false

/-- Whether two lists hold the same items. -/
def sameList : List DefinitionItem → List DefinitionItem → Bool
  | [], [] => true
  | left :: lefts, right :: rights => left.same right && sameList lefts rights
  | _, _ => false

/-- The item in words. -/
def display : DefinitionItem → String
  | .parameter number => "#" ++ toString number
  | .token inner => inner.display

end DefinitionItem

namespace Definition

/-- Whether the token is a parameter character. -/
def isParameter (token : Token) : Bool := token.category == .parameter

/-- Replace each run of parameter characters by half as many copies of its first
one, rounded up. -/
def normalize (tokens : List Token) : List Token :=
  match tokens with
  | [] => []
  | token :: rest =>
      if isParameter token then
        let run := 1 + (rest.takeWhile isParameter).length
        List.replicate ((run + 1) / 2) token ++ normalize (rest.dropWhile isParameter)
      else token :: normalize rest
termination_by tokens.length
decreasing_by
  · have shorter := Text.length_dropWhile_le isParameter rest
    simp only [List.length_cons]
    omega
  · simp

/-- Whether two parameter characters follow each other. -/
def hasDoubled : List Token → Bool
  | first :: second :: rest =>
      (isParameter first && isParameter second) || hasDoubled (second :: rest)
  | _ => false

/-- The number that a digit behind a parameter character denotes. -/
def parameterNumber? (token : Token) : Option Nat :=
  match token.text.toList with
  | [digit] =>
      if '1' ≤ digit ∧ digit ≤ '9' ∧ token.category ≠ .escape then some (digit.toNat - 48)
      else none
  | _ => none

/-- The report of a parameter character that no digit follows in a parameter
text. -/
def unnumbered : LogEntry :=
  .warning "expansion" "Parameters must be numbered consecutively"

/-- The report of a parameter character that no digit follows in a replacement
text. -/
def illegalNumber : LogEntry :=
  .warning "expansion" "Illegal parameter number in definition"

/-- Read a parameter text.  Parameter characters without a number are dropped. -/
def signatureOf : List Token → List DefinitionItem × List LogEntry
  | [] => ([], [])
  | token :: next :: rest =>
      if isParameter token then
        match parameterNumber? next with
        | some number =>
            let (items, reports) := signatureOf rest
            (.parameter number :: items, reports)
        | none =>
            let (items, reports) := signatureOf (next :: rest)
            (items, unnumbered :: reports)
      else
        let (items, reports) := signatureOf (next :: rest)
        (.token token :: items, reports)
  | [token] => if isParameter token then ([], [unnumbered]) else ([.token token], [])

/-- Read a replacement text.  Parameter characters without a number stand for
themselves. -/
def bodyOf : List Token → List DefinitionItem × List LogEntry
  | [] => ([], [])
  | token :: next :: rest =>
      if isParameter token then
        if isParameter next then
          let (items, reports) := bodyOf rest
          (.token next :: items, reports)
        else
          match parameterNumber? next with
          | some number =>
              let (items, reports) := bodyOf rest
              (.parameter number :: items, reports)
          | none =>
              let (items, reports) := bodyOf (next :: rest)
              (.token token :: items, illegalNumber :: reports)
      else
        let (items, reports) := bodyOf (next :: rest)
        (.token token :: items, reports)
  | [token] => ([.token token], if isParameter token then [illegalNumber] else [])

/-- Put the arguments in the places of the parameters.  A parameter without an
argument vanishes. -/
def substitute (arguments : List (List Token)) : List DefinitionItem → List Token
  | [] => []
  | .token token :: rest => token :: substitute arguments rest
  | .parameter number :: rest =>
      arguments.getD (number - 1) [] ++ substitute arguments rest

/-- Whether a brace that is opened closes again before the last token.  The depth
counts the braces that are open. -/
def closesEarly : Nat → List Token → Bool
  | depth, token :: next :: rest =>
      match token.category with
      | .beginGroup => closesEarly (depth + 1) (next :: rest)
      | .endGroup => depth ≤ 1 || closesEarly (depth - 1) (next :: rest)
      | _ => closesEarly depth (next :: rest)
  | _, _ => false

/-- Take off a pair of braces that encloses the whole list. -/
def stripBraces (tokens : List Token) : List Token :=
  match tokens.head?, tokens.getLast? with
  | some first, some last =>
      if first.category = .beginGroup && last.category = .endGroup && !closesEarly 0 tokens then
        (tokens.drop 1).dropLast
      else tokens
  | _, _ => tokens

end Definition

/-- Which command made a definition. -/
inductive DefinitionOrigin where
  | parameterText
  | newCommand
  deriving DecidableEq, Repr, Inhabited

/-- What a user defined command is replaced by. -/
structure Definition where
  name : String
  origin : DefinitionOrigin
  /-- The parameter text. -/
  signature : List DefinitionItem
  /-- The first argument where it is optional and left out. -/
  fallback : Option (List Token)
  /-- The replacement text. -/
  body : List DefinitionItem
  /-- Whether the command stays as it is while a token list is expanded
  completely. -/
  isProtected : Bool
  deriving DecidableEq, Repr, Inhabited

namespace Definition

/-- The number of parameters, as one byte. -/
def arity (definition : Definition) : Nat :=
  (definition.signature.countP fun
    | .parameter _ => true
    | .token _ => false) % 256

/-- Whether two optional token lists hold the same tokens. -/
def sameFallback : Option (List Token) → Option (List Token) → Bool
  | none, none => true
  | some left, some right => Token.sameList left right
  | _, _ => false

/-- Whether two definitions replace alike, whatever their names. -/
def same (left right : Definition) : Bool :=
  DefinitionItem.sameList left.signature right.signature &&
    sameFallback left.fallback right.fallback &&
    DefinitionItem.sameList left.body right.body && left.isProtected == right.isProtected

/-- The replacement for the given arguments. -/
def apply (definition : Definition) (arguments : List (List Token)) : List Token :=
  substitute arguments definition.body

/-- The definition in words. -/
def meaning (definition : Definition) : String :=
  (if definition.isProtected then "\\protected " else "") ++ "macro:" ++
    String.join (definition.signature.map DefinitionItem.display) ++ "->" ++
    String.join (definition.body.map DefinitionItem.display)

/-- A definition with plain parameters, as `\newcommand` makes it, and the
reports on its replacement text. -/
def ofCommand (name : String) (arity : Nat) (fallback : Option (List Token))
    (body : List Token) : Definition × List LogEntry :=
  let (items, reports) := bodyOf body
  ({ name
     origin := .newCommand
     signature := (List.range arity).map fun index => .parameter (index + 1)
     fallback := if arity = 0 then none else fallback
     body := items
     isProtected := false }, reports)

end Definition

end TexTree
