import TexTree.Definition
import TexTree.Input.Argument

/-!
# Calls of definitions

A call of a user definition is followed by its arguments.  A definition with a
parameter text prescribes what stands between them; one that was made by
`\newcommand` takes plain arguments, the first of which may be optional.
-/

namespace TexTree

namespace Input

/-- The tokens before a delimiter that is given in reverse, as are the tokens
that were read already for the named command.  Groups are passed over as a
whole. -/
def delimited (table : CategoryTable) (command : String) (delimiter read : List Token)
    (input : Input) : Except Fault (List Token) × Input :=
  match _found : input.next table with
  | (none, rest) => (.error (.inputEndedIn command), rest)
  | (some token, rest) =>
      if token.category = .beginGroup then
        match _inner : group table 0 rest with
        | (none, rest') => (.error .inputEnded, rest')
        | (some inside, rest') =>
            delimited table command delimiter
              (Token.endGroup :: inside.reverse ++ token :: read) rest'
      else
        let read' := token :: read
        if Token.sameList (read'.take delimiter.length) delimiter then
          (.ok (read'.drop delimiter.length).reverse, rest)
        else delimited table command delimiter read' rest
termination_by input.size
decreasing_by
  · exact Nat.lt_trans (size_group _inner) (size_next _found)
  · exact size_next _found

/-- An argument that must be there for the named command. -/
def requiredArgument (table : CategoryTable) (command : String) (input : Input) :
    Except Fault (List Token) × Input :=
  match input.argument table with
  | (.ok (some (tokens, _)), rest) => (.ok tokens, rest)
  | (.ok none, rest) => (.error (.inputEndedIn command), rest)
  | (.error fault, rest) => (.error fault, rest)

/-- So many plain arguments. -/
def plainArguments (table : CategoryTable) (command : String) :
    Nat → Input → Except Fault (List (List Token)) × Input
  | 0, input => (.ok [], input)
  | count + 1, input =>
      match input.requiredArgument table command with
      | (.error fault, rest) => (.error fault, rest)
      | (.ok first, rest) =>
          let (others, final) := plainArguments table command count rest
          (others.map (first :: ·), final)

end Input

namespace DefinitionItem

/-- The token of an item that is one. -/
def token? : DefinitionItem → Option Token
  | .token inner => some inner
  | .parameter _ => none

/-- Whether the item is a token. -/
def isToken (item : DefinitionItem) : Bool := item.token?.isSome

end DefinitionItem

namespace Definition

/-- The arguments that a parameter text prescribes for the named command. -/
def matchSignature (table : CategoryTable) (command : String)
    (signature : List DefinitionItem) (input : Input) :
    Except Fault (List (List Token)) × Input :=
  match signature with
  | [] => (.ok [], input)
  | .token expected :: items =>
      match input.next table with
      | (none, rest) => (.error (.inputEndedIn command), rest)
      | (some found, rest) =>
          if found.same expected then matchSignature table command items rest
          else (.error (.mismatch command expected found), rest)
  | .parameter _ :: items =>
      let delimiter := (items.takeWhile DefinitionItem.isToken).filterMap DefinitionItem.token?
      let (first, rest) : Except Fault (List Token) × Input :=
        if delimiter.isEmpty then input.requiredArgument table command
        else
          let (tokens, rest) := input.delimited table command delimiter.reverse []
          (tokens.map stripBraces, rest)
      match first with
      | .error fault => (.error fault, rest)
      | .ok tokens =>
          let (others, final) :=
            matchSignature table command (items.dropWhile DefinitionItem.isToken) rest
          (others.map (tokens :: ·), final)
termination_by signature.length
decreasing_by
  · simp
  · have shorter := Text.length_dropWhile_le DefinitionItem.isToken items
    simp only [List.length_cons]
    omega

/-- The arguments of a call of the definition by the named command. -/
def readArguments (definition : Definition) (table : CategoryTable) (command : String)
    (input : Input) : Except Fault (List (List Token)) × Input :=
  match definition.origin, definition.fallback, definition.arity with
  | .newCommand, some fallback, count + 1 =>
      match input.bracketed table '[' ']' with
      | (.error fault, rest) => (.error fault, rest)
      | (.ok first, rest) =>
          let (others, final) := Input.plainArguments table command count rest
          (others.map (first.getD fallback :: ·), final)
  | .newCommand, _, count => input.plainArguments table command count
  | .parameterText, _, _ => matchSignature table command definition.signature input

end Definition

end TexTree
