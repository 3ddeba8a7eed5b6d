import TexTree.Document.Basic
import TexTree.Text.Blank

/-!
# Trees

The part of a document below a node, unfolded into a tree.  Whatever is computed
from the content of a node is computed by recursion on its tree.

Since a node can lie below itself only if it was put there, a depth of as many
levels as there are nodes shows every tree completely.
-/

namespace TexTree

/-- A node with its index and the trees of its children. -/
inductive Tree where
  | node (id : NodeId) (data : Node) (children : List Tree)
  deriving Inhabited

namespace Tree

/-- The index of the topmost node. -/
def id : Tree → NodeId
  | .node id _ _ => id

/-- The topmost node. -/
def data : Tree → Node
  | .node _ data _ => data

/-- The trees of the children. -/
def children : Tree → List Tree
  | .node _ _ children => children

mutual

/-- The texts of the tree, one after the other. -/
def text : Tree → String
  | .node _ data children =>
      match data.kind with
      | .text content => content
      | _ => textAll children

/-- The texts of several trees, one after the other. -/
def textAll : List Tree → String
  | [] => ""
  | tree :: rest => tree.text ++ textAll rest

end

mutual

/-- The nodes with the given name, in the order of the document. -/
def findAll (name : String) : Tree → List NodeId
  | .node id data children =>
      (if data.name == name then [id] else []) ++ findAllIn name children

/-- The nodes with the given name in several trees. -/
def findAllIn (name : String) : List Tree → List NodeId
  | [] => []
  | tree :: rest => tree.findAll name ++ findAllIn name rest

end

mutual

/-- Whether the tree is only white space: a blank text, or a paragraph of such
trees. -/
def isBlank : Tree → Bool
  | .node _ data children =>
      match data.kind with
      | .text content => (Text.trim content).isEmpty
      | .element => data.name == "par" && allBlank children
      | _ => false

/-- Whether several trees are only white space. -/
def allBlank : List Tree → Bool
  | [] => true
  | tree :: rest => tree.isBlank && allBlank rest

end

end Tree

namespace Document

/-- The tree below a node, down to the given depth. -/
def unfold (document : Document) : Nat → NodeId → Tree
  | 0, id => .node id (document.node id) []
  | depth + 1, id =>
      .node id (document.node id) ((document.children id).map (document.unfold depth))

/-- The tree below a node. -/
def tree (document : Document) (id : NodeId) : Tree := document.unfold document.size id

/-- The texts below a node. -/
def textContent (document : Document) (id : NodeId) : String := (document.tree id).text

/-- Whether a node is only white space. -/
def isBlank (document : Document) (id : NodeId) : Bool := (document.tree id).isBlank

/-- The nodes with the given name at and below a node, in the order of the
document. -/
def findAll (document : Document) (id : NodeId) (name : String) : List NodeId :=
  (document.tree id).findAll name

end Document

end TexTree
