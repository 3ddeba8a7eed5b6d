import Mathlib.Data.List.Basic
import TexTree.Document.Tree

/-!
# Links between nodes

The nodes of a document are linked in both directions: a node lists its children
and names its parent.  The operations on documents either add a node, change what
a node says without touching its links, or move a node from one parent to another.
This module says, node by node, what each of them does, so that later proofs never
look at the array.

What a node is apart from its links is called its core; moving nodes about never
changes a core.
-/

namespace TexTree

namespace Node

/-- A node without its links. -/
def core (node : Node) : Node := { node with children := [], parent := none }

/-- The parts of a node by which it takes up and admits other nodes, and by which
its source is written.  They are settled once the command of the node has been
carried out. -/
def traits (node : Node) : Node :=
  { node with
    kind := .element, attributes := [], children := [], parent := none, position := none
    label := none, number := none }

@[simp] theorem core_setChildren (node : Node) (children : List NodeId) :
    core { node with children } = node.core := rfl

@[simp] theorem core_setParent (node : Node) (parent : Option NodeId) :
    core { node with parent } = node.core := rfl

/-- The core determines the traits. -/
theorem traits_eq_of_core_eq {left right : Node} (equal : left.core = right.core) :
    left.traits = right.traits := by
  have same := congrArg traits equal
  simpa [core, traits] using same

/-- The traits determine the level. -/
theorem level_eq_of_traits_eq {left right : Node} (equal : left.traits = right.traits) :
    left.level = right.level := by
  have same := congrArg Node.level equal
  exact same

/-- The traits determine the rule of digestion. -/
theorem digest_eq_of_traits_eq {left right : Node} (equal : left.traits = right.traits) :
    left.digest = right.digest := by
  have same := congrArg Node.digest equal
  exact same

/-- The traits determine whether a node is a block. -/
theorem block_eq_of_traits_eq {left right : Node} (equal : left.traits = right.traits) :
    left.block = right.block := by
  have same := congrArg Node.block equal
  exact same

/-- The core determines the kind. -/
theorem kind_eq_of_core_eq {left right : Node} (equal : left.core = right.core) :
    left.kind = right.kind := by
  have same := congrArg Node.kind equal
  simpa [core] using same

end Node

namespace Document

/-- The parent of a node. -/
def parent? (document : Document) (id : NodeId) : Option NodeId := (document.node id).parent

/-! ## Looking up nodes -/

@[simp] theorem size_modify (document : Document) (id : NodeId) (change : Node → Node) :
    (document.modify id change).size = document.size := by
  simp [modify, size]

theorem node_modify (document : Document) (id other : NodeId) (change : Node → Node) :
    (document.modify id change).node other =
      if id = other ∧ other < document.size then change (document.node other)
      else document.node other := by
  simp only [modify, node, size, Array.getD_eq_getD_getElem?, Array.getElem?_modify]
  by_cases equal : id = other
  · subst equal
    by_cases inside : id < document.nodes.size
    · simp [inside]
    · simp [inside]
  · simp [equal]

@[simp] theorem node_modify_self {document : Document} {id : NodeId} (change : Node → Node)
    (inside : id < document.size) :
    (document.modify id change).node id = change (document.node id) := by
  simp [node_modify, inside]

theorem node_modify_of_ne {document : Document} {id other : NodeId} (change : Node → Node)
    (different : id ≠ other) :
    (document.modify id change).node other = document.node other := by
  simp [node_modify, different]

/-- Outside of the array there are only empty nodes. -/
theorem node_of_size_le {document : Document} {id : NodeId} (outside : document.size ≤ id) :
    document.node id = default := by
  simp only [size] at outside
  simp [node, Array.getD_eq_getD_getElem?, Array.getElem?_eq_none outside]

theorem children_of_size_le {document : Document} {id : NodeId}
    (outside : document.size ≤ id) : document.children id = [] := by
  rw [children, node_of_size_le outside]
  rfl

theorem parent?_of_size_le {document : Document} {id : NodeId}
    (outside : document.size ≤ id) : document.parent? id = none := by
  rw [parent?, node_of_size_le outside]
  rfl

/-- A node with a parent is in the array. -/
theorem lt_size_of_parent? {document : Document} {id above : NodeId}
    (linked : document.parent? id = some above) : id < document.size := by
  by_contra outside
  rw [parent?_of_size_le (Nat.le_of_not_lt outside)] at linked
  cases linked

/-- A node with a child is in the array. -/
theorem lt_size_of_mem_children {document : Document} {id child : NodeId}
    (member : child ∈ document.children id) : id < document.size := by
  by_contra outside
  rw [children_of_size_le (Nat.le_of_not_lt outside)] at member
  cases member

@[simp] theorem create_fst (document : Document) (node : Node) :
    (document.create node).1 = document.size := rfl

@[simp] theorem size_create (document : Document) (node : Node) :
    (document.create node).2.size = document.size + 1 := by
  simp [create, size]

theorem node_create (document : Document) (node : Node) (id : NodeId) :
    (document.create node).2.node id =
      if id = document.size then node else document.node id := by
  simp only [create, Document.node, size, Array.getD_eq_getD_getElem?, Array.getElem?_push]
  split <;> simp

@[simp] theorem node_create_self (document : Document) (node : Node) :
    (document.create node).2.node document.size = node := by
  simp [node_create]

theorem node_create_of_lt {document : Document} (node : Node) {id : NodeId}
    (inside : id < document.size) :
    (document.create node).2.node id = document.node id := by
  simp [node_create, Nat.ne_of_lt inside]

/-- A node without links changes no list of children. -/
theorem children_create {document : Document} {node : Node} (unlinked : node.children = [])
    (id : NodeId) : (document.create node).2.children id = document.children id := by
  simp only [children, node_create]
  split
  · next equal =>
      subst equal
      rw [unlinked, node_of_size_le (Nat.le_refl _)]
      rfl
  · rfl

/-- A node without links changes no parent. -/
theorem parent?_create {document : Document} {node : Node} (unlinked : node.parent = none)
    (id : NodeId) : (document.create node).2.parent? id = document.parent? id := by
  simp only [parent?, node_create]
  split
  · next equal =>
      subst equal
      rw [unlinked, node_of_size_le (Nat.le_refl _)]
      rfl
  · rfl

/-! ## Changes that leave the links alone -/

/-- A change that keeps the children keeps all lists of children. -/
theorem children_modify (change : Node → Node)
    (kept : ∀ node, (change node).children = node.children) (document : Document)
    (id other : NodeId) : (document.modify id change).children other = document.children other := by
  simp only [children, node_modify]
  split
  · exact kept _
  · rfl

/-- A change that keeps the parent keeps all parents. -/
theorem parent?_modify (change : Node → Node)
    (kept : ∀ node, (change node).parent = node.parent) (document : Document)
    (id other : NodeId) : (document.modify id change).parent? other = document.parent? other := by
  simp only [parent?, node_modify]
  split
  · exact kept _
  · rfl

/-- A change that keeps the core keeps all cores. -/
theorem core_modify (change : Node → Node) (kept : ∀ node, (change node).core = node.core)
    (document : Document) (id other : NodeId) :
    ((document.modify id change).node other).core = (document.node other).core := by
  simp only [node_modify]
  split
  · exact kept _
  · rfl

/-- A change that keeps the traits keeps all traits. -/
theorem traits_modify (change : Node → Node)
    (kept : ∀ node, (change node).traits = node.traits) (document : Document)
    (id other : NodeId) :
    ((document.modify id change).node other).traits = (document.node other).traits := by
  simp only [node_modify]
  split
  · exact kept _
  · rfl

/-! ## Taking nodes from their parents -/

@[simp] theorem size_detach (document : Document) (child : NodeId) :
    (document.detach child).size = document.size := by
  unfold detach
  split <;> simp

theorem core_detach (document : Document) (child id : NodeId) :
    ((document.detach child).node id).core = (document.node id).core := by
  unfold detach
  split
  · rfl
  · rw [core_modify, core_modify] <;> intro node <;> rfl

theorem children_detach (document : Document) (child id : NodeId) :
    (document.detach child).children id =
      if document.parent? child = some id then (document.children id).filter (· != child)
      else document.children id := by
  unfold detach
  split
  · next free => simp [parent?, free]
  · next above linked =>
      have kept := children_modify (fun node => { node with parent := none }) (fun _ => rfl)
        document child id
      simp only [parent?, linked, Option.some.injEq]
      by_cases equal : above = id
      · subst equal
        rw [if_pos rfl]
        by_cases inside : above < document.size
        · rw [children, node_modify_self _ (by simpa using inside)]
          exact congrArg (List.filter _) kept
        · have outside := Nat.le_of_not_lt inside
          rw [children_of_size_le (by simpa using outside), children_of_size_le outside]
          rfl
      · rw [if_neg equal, children, node_modify_of_ne _ equal]
        exact kept

/-- Nothing is taken from a list that does not hold the node. -/
theorem children_detach_of_not_mem {document : Document} {child id : NodeId}
    (unlisted : child ∉ document.children id) :
    (document.detach child).children id = document.children id := by
  rw [children_detach]
  split
  · rw [List.filter_eq_self]
    intro other member
    rw [bne_iff_ne]
    intro equal
    exact unlisted (equal ▸ member)
  · rfl

theorem parent?_detach (document : Document) (child id : NodeId) :
    (document.detach child).parent? id =
      if id = child then none else document.parent? id := by
  unfold detach
  split
  · next free =>
      by_cases equal : id = child
      · subst equal
        simp [parent?, free]
      · rw [if_neg equal]
  · next above linked =>
      rw [parent?_modify]
      · by_cases equal : id = child
        · subst equal
          rw [if_pos rfl, parent?, node_modify_self]
          exact lt_size_of_parent? linked
        · rw [if_neg equal, parent?, node_modify_of_ne _ (Ne.symm equal)]
          rfl
      · intro node
        rfl

/-- A node without a parent cannot be taken from it. -/
theorem detach_of_parent?_eq_none {document : Document} {child : NodeId}
    (free : document.parent? child = none) : document.detach child = document := by
  simp only [parent?] at free
  simp [detach, free]

/-! ## Giving nodes to a parent -/

@[simp] theorem size_attach (document : Document) (parent child : NodeId) :
    (document.attach parent child).size = document.size := by
  simp [attach]

theorem core_attach (document : Document) (parent child id : NodeId) :
    ((document.attach parent child).node id).core = (document.node id).core := by
  unfold attach
  rw [core_modify, core_modify, core_detach] <;> intro node <;> rfl

theorem children_attach {document : Document} {parent : NodeId}
    (inside : parent < document.size) (child id : NodeId) :
    (document.attach parent child).children id =
      (document.detach child).children id ++ if id = parent then [child] else [] := by
  unfold attach
  have kept := children_modify (fun node => { node with parent := some parent })
    (fun _ => rfl) (document.detach child) child id
  by_cases equal : id = parent
  · subst equal
    rw [children, node_modify_self _ (by simpa using inside), if_pos rfl]
    exact congrArg (· ++ [child]) kept
  · rw [children, node_modify_of_ne _ (Ne.symm equal), if_neg equal, List.append_nil]
    exact kept

theorem parent?_attach {document : Document} {child : NodeId} (inside : child < document.size)
    (parent id : NodeId) :
    (document.attach parent child).parent? id =
      if id = child then some parent else document.parent? id := by
  unfold attach
  rw [parent?_modify]
  · by_cases equal : id = child
    · subst equal
      rw [if_pos rfl, parent?, node_modify_self _ (by simpa using inside)]
    · rw [if_neg equal, parent?, node_modify_of_ne _ (Ne.symm equal)]
      have detached := parent?_detach document child id
      rw [if_neg equal] at detached
      exact detached
  · intro node
    rfl

/-! ## Giving several nodes to a parent -/

/-- Make nodes the last children of another one, the first one first. -/
def attachAll (document : Document) (parent : NodeId) (children : List NodeId) : Document :=
  children.foldl (fun document child => document.attach parent child) document

theorem attachAll_cons (document : Document) (parent child : NodeId) (rest : List NodeId) :
    document.attachAll parent (child :: rest) =
      (document.attach parent child).attachAll parent rest := rfl

@[simp] theorem size_attachAll (document : Document) (parent : NodeId)
    (children : List NodeId) : (document.attachAll parent children).size = document.size := by
  induction children generalizing document with
  | nil => rfl
  | cons child rest ih => rw [attachAll_cons, ih, size_attach]

theorem core_attachAll (document : Document) (parent : NodeId) (children : List NodeId)
    (id : NodeId) :
    ((document.attachAll parent children).node id).core = (document.node id).core := by
  induction children generalizing document with
  | nil => rfl
  | cons child rest ih => rw [attachAll_cons, ih, core_attach]

/-- Nodes that nobody lists are added to the children of their new parent and
taken from nobody. -/
theorem children_attachAll {document : Document} {parent : NodeId} {children : List NodeId}
    (inside : parent < document.size) (nodup : children.Nodup)
    (unlisted : ∀ child ∈ children, ∀ id, child ∉ document.children id) (id : NodeId) :
    (document.attachAll parent children).children id =
      document.children id ++ if id = parent then children else [] := by
  induction children generalizing document with
  | nil => split <;> simp [attachAll]
  | cons child rest ih =>
      rw [List.nodup_cons] at nodup
      have step : ∀ id, (document.attach parent child).children id =
          document.children id ++ if id = parent then [child] else [] := by
        intro id
        rw [children_attach inside,
          children_detach_of_not_mem (unlisted child (List.mem_cons_self) id)]
      rw [attachAll_cons, ih (by simpa using inside) nodup.2, step]
      · split <;> simp
      · intro other member id
        have older := unlisted other (List.mem_cons_of_mem child member) id
        rw [step]
        split
        · rw [List.mem_append, List.mem_singleton]
          rintro (listed | equal)
          · exact older listed
          · exact nodup.1 (equal ▸ member)
        · simpa using older

theorem parent?_attachAll {document : Document} {parent : NodeId} {children : List NodeId}
    (inside : ∀ child ∈ children, child < document.size) (id : NodeId) :
    (document.attachAll parent children).parent? id =
      if id ∈ children then some parent else document.parent? id := by
  induction children generalizing document with
  | nil => simp [attachAll]
  | cons child rest ih =>
      have childInside := inside child List.mem_cons_self
      have restInside : ∀ other ∈ rest, other < (document.attach parent child).size := by
        intro other member
        rw [size_attach]
        exact inside other (List.mem_cons_of_mem child member)
      rw [attachAll_cons, ih restInside, parent?_attach childInside]
      by_cases later : id ∈ rest
      · simp [later]
      · by_cases equal : id = child <;> simp [later, equal]

/-- What is no fragment is appended as it is. -/
theorem append_of_not_fragment {document : Document} {parent child : NodeId}
    (whole : (document.node child).kind ≠ .fragment) :
    document.append parent child = document.attach parent child := by
  simp [append, whole]

/-- Of a fragment the children are appended. -/
theorem append_of_fragment {document : Document} {parent child : NodeId}
    (fragment : (document.node child).kind = .fragment) :
    document.append parent child =
      (document.modify child fun node => { node with children := [] }).attachAll parent
        (document.children child) := by
  simp [append, fragment, attachAll]

theorem core_append (document : Document) (parent child id : NodeId) :
    ((document.append parent child).node id).core = (document.node id).core := by
  by_cases isFragment : (document.node child).kind = .fragment
  · rw [append_of_fragment isFragment, core_attachAll, core_modify]
    intro node
    rfl
  · rw [append_of_not_fragment isFragment, core_attach]

@[simp] theorem size_append (document : Document) (parent child : NodeId) :
    (document.append parent child).size = document.size := by
  by_cases isFragment : (document.node child).kind = .fragment
  · rw [append_of_fragment isFragment, size_attachAll, size_modify]
  · rw [append_of_not_fragment isFragment, size_attach]

/-- Nodes that are no fragments are appended as they are. -/
theorem foldl_append {parent : NodeId} {children : List NodeId} {document : Document}
    (whole : ∀ child ∈ children, (document.node child).kind ≠ .fragment) :
    children.foldl (fun document child => document.append parent child) document =
      document.attachAll parent children := by
  induction children generalizing document with
  | nil => rfl
  | cons child rest ih =>
      rw [attachAll_cons, List.foldl_cons,
        append_of_not_fragment (whole child List.mem_cons_self)]
      apply ih
      intro other member
      rw [Node.kind_eq_of_core_eq (core_attach ..)]
      exact whole other (List.mem_cons_of_mem child member)

end Document

end TexTree
