import TexTree.Command
import TexTree.Table

/-!
# Scopes

Meanings and categories are kept in a stack of frames.  The outermost frame is
always there; each group and each open element puts another one on top of it.  A
name is looked up from the innermost frame outwards, and the first frame that
knows it decides.  A frame knows a name as a command, or as an alias of a
character.

A local assignment changes the innermost frame; a global one changes the
outermost frame and removes what hides it.
-/

namespace TexTree

/-- The element that opened a frame. -/
structure FrameOwner where
  node : Option NodeId
  name : String
  mode : Mode := .plain
  level : Level := Level.command
  /-- Whether the element switches to formulas or back to text. -/
  math : Option Bool := none
  deriving DecidableEq, Repr, Inhabited

/-- What is known in one scope. -/
structure Frame where
  /-- The element that opened the frame; a group has none. -/
  owner : Option FrameOwner
  commands : Table Command
  aliases : Table Token
  categories : CategoryTable
  deriving Inhabited

namespace Frame

/-- A frame in which nothing is defined. -/
def fresh (owner : Option FrameOwner) (categories : CategoryTable) : Frame :=
  ⟨owner, .empty, .empty, categories⟩

/-- Whether the frame is a group. -/
def isGroup (frame : Frame) : Bool := frame.owner.isNone

/-- Bind a name to a command. -/
def bind (frame : Frame) (name : String) (command : Command) : Frame :=
  { frame with
    commands := frame.commands.insert name command
    aliases := frame.aliases.erase name }

/-- Make a name an alias of a character. -/
def bindAlias (frame : Frame) (name : String) (token : Token) : Frame :=
  { frame with
    commands := frame.commands.erase name
    aliases := frame.aliases.insert name token }

/-- Forget a name. -/
def forget (frame : Frame) (name : String) : Frame :=
  { frame with
    commands := frame.commands.erase name
    aliases := frame.aliases.erase name }

/-- Give a character a category. -/
def categorize (frame : Frame) (character : Char) (category : Category) : Frame :=
  { frame with categories := frame.categories.assign character category }

end Frame

/-- The stack of frames. -/
structure Scopes where
  /-- The frames inside of the outermost one, the innermost first. -/
  inner : List Frame
  /-- The outermost frame. -/
  base : Frame
  deriving Inhabited

namespace Scopes

/-- Only an outermost frame without definitions. -/
def initial : Scopes := ⟨[], .fresh none .initial⟩

/-- All frames, the innermost first. -/
def frames (scopes : Scopes) : List Frame := scopes.inner ++ [scopes.base]

/-- The number of frames. -/
def depth (scopes : Scopes) : Nat := scopes.inner.length + 1

/-- The innermost frame. -/
def top (scopes : Scopes) : Frame := scopes.inner.headD scopes.base

/-- Change the innermost frame. -/
def modifyTop (scopes : Scopes) (change : Frame → Frame) : Scopes :=
  match scopes.inner with
  | [] => { scopes with base := change scopes.base }
  | frame :: rest => { scopes with inner := change frame :: rest }

/-- The categories in effect. -/
def categories (scopes : Scopes) : CategoryTable := scopes.top.categories

/-- Open a scope.  An owner at the level of the document closes all scopes
first. -/
def push (scopes : Scopes) (owner : Option FrameOwner) (locals : List (String × Command)) :
    Scopes :=
  let unwinds := owner.any fun opener => opener.level == Level.document
  let below : Scopes := if unwinds then { scopes with inner := [] } else scopes
  let frame := Frame.fresh owner below.categories
  { below with inner := { frame with commands := .ofList locals } :: below.inner }

/-- Close the innermost group and everything that was opened in it. -/
def pop (scopes : Scopes) : Scopes :=
  { scopes with inner := (scopes.inner.dropWhile fun frame => !frame.isGroup).drop 1 }

/-- Whether a frame belongs to an element that ends. -/
def endsAt (ending : FrameOwner) (frame : Frame) : Bool :=
  frame.owner.any fun owner =>
    (owner.node.isSome && owner.node == ending.node) ||
      (owner.name == ending.name && ending.mode == .closing) ||
      Text.afterMark? "end" ending.name == some owner.name

/-- Whether a frame belongs to the parent of an element that ends, and not to
that element. -/
def isParent (ending : FrameOwner) (parent : Option NodeId) (frame : Frame) : Bool :=
  frame.owner.any fun owner =>
    owner.node.isSome && owner.node != ending.node && owner.node == parent

/-- Close the frames of an element that ends, from the innermost one through the
first that belongs to it.  The frame of its parent stays. -/
def closeFrames (ending : FrameOwner) (parent : Option NodeId) : List Frame → List Frame
  | [] => []
  | frame :: rest =>
      if isParent ending parent frame then frame :: rest
      else if endsAt ending frame then rest
      else closeFrames ending parent rest

/-- Close the scopes of an element that ends. -/
def popOwner (scopes : Scopes) (ending : FrameOwner) (parent : Option NodeId) : Scopes :=
  { scopes with inner := closeFrames ending parent scopes.inner }

/-- The names of the open scopes, the innermost first; a group is named by its
brace. -/
def openNames (scopes : Scopes) : List String :=
  scopes.inner.map fun frame =>
    match frame.owner with
    | some owner => owner.name
    | none => "\x7b"

/-- Close all scopes. -/
def unwind (scopes : Scopes) : Scopes := { scopes with inner := [] }

/-- The owners of the open frames, the innermost first. -/
def owners (scopes : Scopes) : List FrameOwner := scopes.frames.filterMap Frame.owner

/-- Whether a group is open. -/
def hasOpenGroup (scopes : Scopes) : Bool := scopes.inner.any Frame.isGroup

/-- Whether formulas are being read. -/
def isMathMode (scopes : Scopes) : Bool :=
  (scopes.owners.findSome? FrameOwner.math).getD false

/-- Give a character a category in the innermost scope, or in all of them. -/
def categorize (scopes : Scopes) (character : Char) (category : Category) (isGlobal : Bool) :
    Scopes :=
  if isGlobal then
    { inner := scopes.inner.map (·.categorize character category)
      base := scopes.base.categorize character category }
  else scopes.modifyTop (·.categorize character category)

/-- Replace the categories of the innermost scope. -/
def setCategories (scopes : Scopes) (categories : CategoryTable) : Scopes :=
  scopes.modifyTop fun frame => { frame with categories }

/-- The command that a name is bound to in a list of frames. -/
def commandIn (name : String) : List Frame → Option Command
  | [] => none
  | frame :: rest =>
      match frame.commands.get? name with
      | some command => some command
      | none => if frame.aliases.contains name then none else commandIn name rest

/-- The command that a name is bound to. -/
def command? (scopes : Scopes) (name : String) : Option Command :=
  commandIn name scopes.frames

/-- The character that a name is an alias of in a list of frames. -/
def aliasIn (name : String) : List Frame → Option Token
  | [] => none
  | frame :: rest =>
      match frame.aliases.get? name with
      | some token => some token
      | none => if frame.commands.contains name then none else aliasIn name rest

/-- The character that a name is an alias of. -/
def alias? (scopes : Scopes) (name : String) : Option Token := aliasIn name scopes.frames

/-- Whether a name has a meaning other than a placeholder. -/
def isDefined (scopes : Scopes) (name : String) : Bool :=
  match scopes.command? name with
  | some command => !command.isUnrecognized
  | none => (scopes.alias? name).isSome

/-- Bind a name without a meaning to a placeholder in the outermost scope. -/
def bindPlaceholder (scopes : Scopes) (name : String) : Scopes :=
  { scopes with
    base := { scopes.base with
      commands := scopes.base.commands.insert name (.unrecognized name) } }

/-- Bind a name to a command in the innermost scope, or in the outermost one
only. -/
def setCommand (scopes : Scopes) (name : String) (command : Command) (isGlobal : Bool) :
    Scopes :=
  if isGlobal then
    { inner := scopes.inner.map (·.forget name)
      base := scopes.base.bind name command }
  else scopes.modifyTop (·.bind name command)

/-- Make a name an alias of a character. -/
def setAlias (scopes : Scopes) (name : String) (token : Token) (isGlobal : Bool) : Scopes :=
  if isGlobal then
    { inner := scopes.inner.map (·.forget name)
      base := scopes.base.bindAlias name token }
  else scopes.modifyTop (·.bindAlias name token)

/-- Give a name the meaning that a token has now.  Later changes to the token do
not matter. -/
def letToken (scopes : Scopes) (name : String) (source : Token) (isGlobal : Bool) : Scopes :=
  if source.isControl then
    match scopes.alias? source.text with
    | some token => scopes.setAlias name (token.at? none) isGlobal
    | none =>
        let command := (scopes.command? source.text).getD (.unrecognized source.text)
        scopes.setCommand name command isGlobal
  else scopes.setAlias name (source.at? none) isGlobal

/-- The template of the printed form that a name is bound to. -/
def template? (scopes : Scopes) (name : String) : Option Template :=
  (scopes.command? name).bind Command.template?

end Scopes

end TexTree
