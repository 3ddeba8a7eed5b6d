import TexTree.Document.Tree
import TexTree.Engine.Basic

/-!
# Fragments

A token list that is interpreted on its own, such as an argument, becomes a
fragment of the document.  A marker behind the tokens keeps what they produce
apart from the rest of the input.
-/

namespace TexTree

namespace Engine

/-- Put items into a node until the named marker is read.  Nodes that only close
something are dropped. -/
def digestUntilWithin (interpreter : Interpreter) (parent : NodeId) (marker : String) :
    Nat → TexM Unit
  | 0 => fail .outOfFuel
  | steps + 1 => do
      match ← interpreter.run .nextItem with
      | none => warn "digest" ("Input ended before end of " ++ marker)
      | some (.token character) =>
          if character.category = .endOfList then
            if character.text == marker then return
            else digestUntilWithin interpreter parent marker steps
          else
            appendText parent character.text
            digestUntilWithin interpreter parent marker steps
      | some (.node id) =>
          let node ← nodeOf id
          if !(node.mode == .closing || node.closesGroup) then
            interpreter.run (.digest id)
            appendNode parent id
          digestUntilWithin interpreter parent marker steps

/-- Put items into a node until the named marker is read. -/
def digestUntil (interpreter : Interpreter) (parent : NodeId) (marker : String) : TexM Unit :=
  digestUntilWithin interpreter parent marker interpreter.limit

/-- Interpret a token list into a new fragment. -/
def toFragment (interpreter : Interpreter) (tokens : List Token) : TexM NodeId := do
  let fragment ← createFragment
  pushTokens (tokens ++ [.endOfList "arg"])
  let buffer := (← get).buffer
  modify fun engine => { engine with buffer := [] }
  ensuring (digestUntil interpreter fragment "arg") fun engine => { engine with buffer }
  return fragment

/-- Interpret a token list and give the text of the result. -/
def toText (interpreter : Interpreter) (tokens : List Token) : TexM String := do
  let fragment ← toFragment interpreter tokens
  return (← get).document.textContent fragment

end Engine

end TexTree
