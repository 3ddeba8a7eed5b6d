import TexTree.Document.Paragraph
import TexTree.Engine.Execution

/-!
# Items and digestion

Interpretation produces a sequence of characters and nodes.  A node that has been
produced takes up the items behind it, as its rule of digestion says: a section
everything up to the next section, an environment everything up to its end, and
so on.  Each item is looked at once; one that ends a node and does not belong to
it is kept for the node around it.
-/

namespace TexTree

/-- What a node does with a node that follows it. -/
inductive Reaction where
  /-- Let it digest what belongs to it, and append it. -/
  | takeUp
  /-- Append it as it is. -/
  | append
  /-- Stop, and leave it to the node around. -/
  | leave
  /-- Stop, and drop it. -/
  | finish
  deriving DecidableEq, Repr, Inhabited

namespace Node

/-- Whether a node was produced in a scope around the one of another node. -/
def isOutside (next node : Node) : Bool := next.depth < node.depth

/-- What a node does with a node that follows it. -/
def reaction (node next : Node) : Reaction :=
  match node.digest with
  | .nothing => .leave
  | .environment =>
      if next.level = Level.par then .append
      else if next.level < node.level then .leave
      else if next.mode = .closing ∧ next.name = node.name then .finish
      else if node.level ≠ Level.document ∧ next.isOutside node then .leave
      else .takeUp
  | .sectioning =>
      if next.level ≤ node.level ∨ next.mode = .closing ∨ next.isOutside node then .leave
      else .takeUp
  | .group | .declaration =>
      if next.level < Level.endSections then .leave
      else if next.closesGroup then
        if node.digest = .declaration then .leave else .finish
      else if next.isOutside node ∨ next.mode = .closing then .leave
      else .takeUp
  | .item =>
      if next.name = node.name ∨ next.mode = .closing ∨ next.level < Level.par ∨
          next.isOutside node then .leave
      else .takeUp

/-- The report that the input ended before the node, for those that have an end
of their own. -/
def unfinished? (node : Node) : Option LogEntry :=
  match node.digest with
  | .environment => some (.warning "digest" ("Input ended inside environment " ++ node.name))
  | .group => some (.warning "digest" ("Input ended inside group " ++ node.name))
  | _ => none

end Node

namespace Engine

/-- Keep a node for the node around. -/
def keepForParent (id : NodeId) : TexM Unit :=
  modify fun engine => { engine with buffer := id :: engine.buffer }

/-- Whether a node starts with the given character.  A blank at the start of an
item is dropped. -/
def accepts (document : Document) (id : NodeId) (character : Token) : Bool :=
  (document.node id).digest != .item || !(document.children id).isEmpty ||
    !(Text.trim character.text).isEmpty

/-- Let a node take up items in at most so many steps.  The result tells whether a
paragraph break was appended. -/
def digestWithin (interpreter : Interpreter) (id : NodeId) (node : Node) :
    Nat → Bool → TexM Bool
  | 0, _ => fail .outOfFuel
  | steps + 1, hasBreak => do
      match ← interpreter.run .nextItem with
      | none =>
          if let some entry := node.unfinished? then report entry
          return hasBreak
      | some (.token character) =>
          if character.category = .endOfList then
            putBack character
            return hasBreak
          else
            if accepts (← get).document id character then appendText id character.text
            digestWithin interpreter id node steps hasBreak
      | some (.node next) =>
          match node.reaction (← nodeOf next) with
          | .takeUp =>
              interpreter.run (.digest next)
              appendNode id next
              digestWithin interpreter id node steps hasBreak
          | .append =>
              appendNode id next
              digestWithin interpreter id node steps true
          | .leave =>
              keepForParent next
              return hasBreak
          | .finish => return hasBreak

/-- Let a node take up the items that belong to it, and group them into
paragraphs. -/
def digest (interpreter : Interpreter) (id : NodeId) : TexM Unit := do
  let node ← nodeOf id
  if node.digest = .nothing then return
  let hasBreak ← digestWithin interpreter id node interpreter.limit false
  match node.digest with
  | .nothing => return
  | .environment => if hasBreak then modifyDocument (·.paragraphs id true)
  | .sectioning | .item => modifyDocument (·.paragraphs id true)
  | .group | .declaration => modifyDocument (·.paragraphs id false)

/-- Note in a node that was produced by a token where it comes from. -/
def recordOrigin (id : NodeId) (token : Token) : TexM Unit :=
  modify fun engine =>
    { engine with
      document := engine.document.modify id fun node =>
        { node with
          position := node.position <|> token.position
          depth := if node.depth = 0 then engine.scopes.depth else node.depth } }

/-- Invoke a token.  Nothing if that produces no item. -/
def itemOf (interpreter : Interpreter) (token : Token) (command : Command) :
    TexM (Option Item) := do
  match ← invoke interpreter token command with
  | none => return none
  | some item =>
      clearExpansions
      if let .node id := item then recordOrigin id token
      return some item

/-- The item that a token stands for, or nothing if it produces none. -/
def tokenItem (interpreter : Interpreter) (token : Token) : TexM (Option Item) := do
  match token.category with
  | .endOfList =>
      match Text.afterMark? "end:" token.text with
      | some name =>
          clearExpansions
          return some (.node (← closeEnvironment name))
      | none => return some (.token token)
  | .letter | .other | .space | .parameter =>
      clearExpansions
      return some (.token token)
  | .frozen =>
      let command ← lookup token.text
      if command.isExpandable then return none
      else itemOf interpreter { token with category := .escape } command
  | _ =>
      match token.commandName? with
      | some name => itemOf interpreter token (← lookup name)
      | none =>
          clearExpansions
          return some (.token token)

/-- The next item, after at most so many tokens that produce none. -/
def nextItemWithin (interpreter : Interpreter) : Nat → TexM (Option Item)
  | 0 => fail .outOfFuel
  | steps + 1 => do
      match (← get).buffer with
      | id :: rest =>
          modify fun engine => { engine with buffer := rest }
          return some (.node id)
      | [] =>
          match ← nextToken with
          | none => return none
          | some token =>
              match ← tokenItem interpreter token with
              | some item => return some item
              | none => nextItemWithin interpreter steps

/-- The next item, or nothing at the end of the input. -/
def nextItem (interpreter : Interpreter) : TexM (Option Item) :=
  nextItemWithin interpreter interpreter.limit

/-- Put all items into the root, in at most so many steps.  Markers and nodes that
only close something are dropped. -/
def digestRootWithin (interpreter : Interpreter) : Nat → TexM Unit
  | 0 => fail .outOfFuel
  | steps + 1 => do
      match ← interpreter.run .nextItem with
      | none => return
      | some (.token character) =>
          if character.category ≠ .endOfList then appendText Document.root character.text
          digestRootWithin interpreter steps
      | some (.node id) =>
          let node ← nodeOf id
          if !(node.mode == .closing || node.closesGroup) then
            interpreter.run (.digest id)
            appendNode Document.root id
          digestRootWithin interpreter steps

/-- Put all items into the root. -/
def digestRoot (interpreter : Interpreter) : TexM Unit :=
  digestRootWithin interpreter interpreter.limit

/-- What performing a task means, given an interpreter for the tasks inside of
it. -/
def performTask (interpreter : Interpreter) {α : Type} : Task α → TexM α
  | .expand token command => expandCommand interpreter token command
  | .nextItem => nextItem interpreter
  | .digest node => digest interpreter node

/-- Perform a task with at most so many tasks inside of each other. -/
def runTask : Nat → {α : Type} → Task α → TexM α
  | 0, _, _ => fail .outOfFuel
  | fuel + 1, _, task => performTask ⟨fuel, runTask fuel⟩ task

/-- The interpreter with the given bound on the depth of tasks and on the length
of loops. -/
def interpreter (fuel : Nat) : Interpreter := ⟨fuel, runTask fuel⟩

end Engine

end TexTree
