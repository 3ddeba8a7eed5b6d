import TexTree.Quantity.Basic
import TexTree.Token

/-!
# Documents

The result of interpreting a source is a tree of nodes.  All nodes of a document
are kept in one array and are addressed by their index; each node knows its
children and its parent.  A fragment is a node that never becomes a child: when
it is appended somewhere, its children are appended instead.
-/

namespace TexTree

/-- The index of a node in its document. -/
abbrev NodeId := Nat

/-- How deep a node belongs: a node of a lower level ends nodes of higher
levels. -/
abbrev Level := Int

namespace Level

/-- The level of the root and of the document environment, below all others. -/
def document : Level := -2147483648

/-- The level of parts. -/
def part : Level := -1

/-- The level of chapters. -/
def chapter : Level := 0

/-- The level of sections. -/
def mainSection : Level := 1

/-- The level of subsections. -/
def subsection : Level := 2

/-- The level of subsubsections. -/
def subsubsection : Level := 3

/-- The level of paragraphs with a heading. -/
def paragraph : Level := 4

/-- The level of subparagraphs. -/
def subparagraph : Level := 5

/-- The level of subsubparagraphs. -/
def subsubparagraph : Level := 6

/-- The first level below all sectioning commands. -/
def endSections : Level := 100

/-- The level of paragraph breaks. -/
def par : Level := 101

/-- The level of environments. -/
def environment : Level := 201

/-- The level of commands, texts and fragments. -/
def command : Level := 1001

end Level

/-- Whether a node opens an environment, closes one, or does neither. -/
inductive Mode where
  | plain
  | opening
  | closing
  deriving DecidableEq, Repr, Inhabited

/-- How a node takes up the nodes that follow it. -/
inductive Digest where
  /-- Not at all. -/
  | nothing
  /-- Up to the end of the environment. -/
  | environment
  /-- Up to the next node of the same or a lower level. -/
  | sectioning
  /-- Up to the end of the group that the node opens. -/
  | group
  /-- Up to the end of the group that the node stands in. -/
  | declaration
  /-- Up to the next item. -/
  | item
  deriving DecidableEq, Repr, Inhabited

/-- What a node is. -/
inductive NodeKind where
  | document
  | fragment
  | element
  | text (content : String)
  deriving DecidableEq, Repr, Inhabited

/-- The value of an attribute. -/
inductive Value where
  | none
  | bool (value : Bool)
  | int (value : Int)
  | float (value : Float)
  | dimension (value : Dimension)
  | glue (value : Glue)
  | text (value : String)
  | token (value : Token)
  | tokens (value : List Token)
  | list (items : List Value)
  | dictionary (entries : List (String × Value))
  | fragment (node : NodeId)
  | reference (label : String) (target : Option NodeId)
  deriving Inhabited

namespace Value

/-- The text of a text value. -/
def text? : Value → Option String
  | .text value => some value
  | _ => Option.none

/-- The number of an integer value. -/
def int? : Value → Option Int
  | .int value => some value
  | _ => Option.none

/-- The tokens of a token list. -/
def tokens? : Value → Option (List Token)
  | .tokens value => some value
  | _ => Option.none

/-- Whether there is no value. -/
def isNone : Value → Bool
  | .none => true
  | _ => false

end Value

/-- How the children of a node are written in the source. -/
inductive ContentForm where
  | none
  /-- In braces. -/
  | braced
  /-- As the rest of the group. -/
  | declaration
  /-- Between two copies of a character. -/
  | delimited (character : Char)
  deriving DecidableEq, Repr, Inhabited

/-- A node of a document. -/
structure Node where
  kind : NodeKind
  name : String
  level : Level
  mode : Mode := .plain
  digest : Digest := .nothing
  /-- Whether the node stands between paragraphs. -/
  block : Bool := false
  contentForm : ContentForm := .none
  attributes : List (String × Value) := []
  children : List NodeId := []
  parent : Option NodeId := none
  position : Option Position := none
  /-- The source of the arguments. -/
  argumentSource : String := ""
  /-- The label that is attached to the node. -/
  label : Option String := none
  /-- What a reference to the node prints. -/
  number : Option String := none
  /-- The number of open scopes behind the command that made the node. -/
  depth : Nat := 0
  deriving Inhabited

namespace Node

/-- The value of an attribute. -/
def attribute? (node : Node) (name : String) : Option Value :=
  (node.attributes.find? fun entry => entry.1 == name).map Prod.snd

/-- The content of a text node. -/
def text? (node : Node) : Option String :=
  match node.kind with
  | .text content => some content
  | _ => none

/-- Whether the node is a text. -/
def isText (node : Node) : Bool := node.text?.isSome

/-- Whether the node only closes a group. -/
def closesGroup (node : Node) : Bool := node.name == "egroup" || node.name == "endgroup"

/-- Replace or add an attribute in a list of attributes. -/
def insertAttribute (name : String) (value : Value) :
    List (String × Value) → List (String × Value)
  | [] => [(name, value)]
  | entry :: rest =>
      if entry.1 == name then (entry.1, value) :: rest
      else entry :: insertAttribute name value rest

end Node

/-- The nodes of a document; the first one is the root. -/
structure Document where
  nodes : Array Node
  deriving Inhabited

namespace Document

/-- The root node of every document. -/
def rootNode : Node := { kind := .document, name := "document", level := Level.document }

/-- A document that consists of its root. -/
def empty : Document := ⟨#[rootNode]⟩

/-- The index of the root. -/
def root : NodeId := 0

/-- The number of nodes, including those that have been dropped. -/
def size (document : Document) : Nat := document.nodes.size

/-- The node with the given index. -/
def node (document : Document) (id : NodeId) : Node := document.nodes.getD id default

/-- Change one node. -/
def modify (document : Document) (id : NodeId) (change : Node → Node) : Document :=
  ⟨document.nodes.modify id change⟩

/-- The children of a node. -/
def children (document : Document) (id : NodeId) : List NodeId := (document.node id).children

/-- Add a node that is not part of the tree yet. -/
def create (document : Document) (node : Node) : NodeId × Document :=
  (document.nodes.size, ⟨document.nodes.push node⟩)

/-- An element without children. -/
def element (name : String) (level : Level) (mode : Mode) : Node :=
  { kind := .element, name, level, mode }

/-- Add an element. -/
def createElement (document : Document) (name : String) (level : Level) (mode : Mode) :
    NodeId × Document :=
  document.create (element name level mode)

/-- Add a text. -/
def createText (document : Document) (content : String) : NodeId × Document :=
  document.create { kind := .text content, name := "#text", level := Level.command }

/-- Add a fragment. -/
def createFragment (document : Document) : NodeId × Document :=
  document.create { kind := .fragment, name := "#document-fragment", level := Level.command }

/-- Give an attribute a value. -/
def setAttribute (document : Document) (id : NodeId) (name : String) (value : Value) : Document :=
  document.modify id fun node =>
    { node with attributes := Node.insertAttribute name value node.attributes }

/-- Take a node from its parent. -/
def detach (document : Document) (child : NodeId) : Document :=
  match (document.node child).parent with
  | none => document
  | some parent =>
      (document.modify child fun node => { node with parent := none }).modify parent fun node =>
        { node with children := node.children.filter (· != child) }

/-- Make a node the last child of another one. -/
def attach (document : Document) (parent child : NodeId) : Document :=
  ((document.detach child).modify child fun node => { node with parent := some parent }).modify
    parent fun node => { node with children := node.children ++ [child] }

/-- Append a node; of a fragment the children are appended instead. -/
def append (document : Document) (parent child : NodeId) : Document :=
  if (document.node child).kind = .fragment then
    let children := document.children child
    children.foldl (fun document child => document.attach parent child)
      (document.modify child fun node => { node with children := [] })
  else document.attach parent child

/-- Append text, which becomes part of a text at the end. -/
def appendText (document : Document) (parent : NodeId) (content : String) : Document :=
  let last? := (document.children parent).getLast?
  match last?.bind fun last => (document.node last).text?.map fun start => (last, start) with
  | some (last, start) =>
      document.modify last fun node => { node with kind := .text (start ++ content) }
  | none =>
      let (id, document) := document.createText content
      document.append parent id

/-- Replace the children of a node. -/
def setChildren (document : Document) (parent : NodeId) (children : List NodeId) : Document :=
  let released := (document.children parent).foldl
    (fun document child => document.modify child fun node => { node with parent := none })
    (document.modify parent fun node => { node with children := [] })
  children.foldl (fun document child => document.append parent child) released

end Document

end TexTree
