import TexTree.Proofs.Document.Regrouping

/-!
# Sequences of operations on documents

A document is made by creating nodes and moving them about, in any order.  Whatever is
done with existing nodes, children and parents agree afterwards, and fragments stay
outside of the links (`operations_keep_links`).  The links can only become circular if
an operation is asked to put a node below itself.

One operation keeps a document consistent (`Consistent.apply`), and sound if it puts
nothing below itself (`Sound.apply`); sequences follow by induction.
-/

namespace TexTree.Document

/-- The ways to change the nodes of a document and their links. -/
inductive Operation where
  | createElement (name : String) (level : Level) (mode : Mode)
  | createText (content : String)
  | createFragment
  | append (parent child : NodeId)
  | appendText (parent : NodeId) (content : String)
  | setChildren (parent : NodeId) (children : List NodeId)
  | paragraphs (id : NodeId) (force : Bool)
  deriving DecidableEq, Repr

namespace Operation

/-- Perform an operation. -/
def apply (document : Document) : Operation → Document
  | .createElement name level mode => (document.createElement name level mode).2
  | .createText content => (document.createText content).2
  | .createFragment => document.createFragment.2
  | .append parent child => document.append parent child
  | .appendText parent content => document.appendText parent content
  | .setChildren parent children => document.setChildren parent children
  | .paragraphs id force => document.paragraphs id force

/-- The nodes that an operation is given. -/
def nodes : Operation → List NodeId
  | .createElement _ _ _ | .createText _ | .createFragment => []
  | .append parent child => [parent, child]
  | .appendText parent _ => [parent]
  | .setChildren parent children => parent :: children
  | .paragraphs id _ => [id]

/-- The operation is given nodes of the document only. -/
def Valid (document : Document) (operation : Operation) : Prop :=
  ∀ id ∈ operation.nodes, id < document.size

instance (document : Document) (operation : Operation) :
    Decidable (operation.Valid document) :=
  inferInstanceAs (Decidable (∀ id ∈ operation.nodes, id < document.size))

/-- The nodes that an operation is asked to place in others, each with its new parent. -/
def placed (document : Document) : Operation → List (NodeId × NodeId)
  | .append parent child => (document.parts child).map fun part => (part, parent)
  | .setChildren parent children =>
      (children.flatMap document.parts).map fun part => (part, parent)
  | _ => []

/-- No node is placed below itself or one of its own descendants. -/
def Separate (document : Document) (operation : Operation) : Prop :=
  ∀ place ∈ operation.placed document, ¬document.Reaches place.1 place.2

end Operation

/-- Perform operations one after the other. -/
def run (document : Document) (operations : List Operation) : Document :=
  operations.foldl Operation.apply document

/-- Each operation satisfies a condition in the document that it is performed in. -/
def Throughout (condition : Document → Operation → Prop) : Document → List Operation → Prop
  | _, [] => True
  | document, operation :: rest =>
      condition document operation ∧ Throughout condition (operation.apply document) rest

instance decidableThroughout (condition : Document → Operation → Prop)
    [∀ document operation, Decidable (condition document operation)] :
    (document : Document) → (operations : List Operation) →
      Decidable (Throughout condition document operations)
  | _, [] => .isTrue trivial
  | document, operation :: rest =>
      have := decidableThroughout condition (operation.apply document) rest
      inferInstanceAs (Decidable
        (condition document operation ∧ Throughout condition (operation.apply document) rest))

variable {document : Document}

theorem Throughout.mono {condition weaker : Document → Operation → Prop}
    {operations : List Operation} (throughout : Throughout condition document operations)
    (weaken : ∀ document operation, condition document operation → weaker document operation) :
    Throughout weaker document operations := by
  induction operations generalizing document with
  | nil => trivial
  | cons operation rest ih => exact ⟨weaken document operation throughout.1, ih throughout.2⟩

/-! ## One operation -/

theorem Consistent.apply (consistent : document.Consistent) {operation : Operation}
    (valid : operation.Valid document) : (operation.apply document).Consistent := by
  cases operation with
  | createElement name level mode => exact consistent.create rfl rfl
  | createText content => exact consistent.create rfl rfl
  | createFragment => exact consistent.create rfl rfl
  | append parent child =>
      apply consistent.append (valid parent (by simp [Operation.nodes]))
      exact valid child (by simp [Operation.nodes])
  | appendText parent content =>
      exact consistent.appendText (valid parent (by simp [Operation.nodes])) content
  | setChildren parent children =>
      apply consistent.setChildren (valid parent (by simp [Operation.nodes]))
      exact fun child member => valid child (List.mem_cons_of_mem parent member)
  | paragraphs id force =>
      exact consistent.paragraphs (valid id (by simp [Operation.nodes])) force

theorem Sound.apply (sound : document.Sound) {operation : Operation}
    (valid : operation.Valid document) (separate : operation.Separate document) :
    (operation.apply document).Sound := by
  cases operation with
  | createElement name level mode => exact sound.create rfl rfl
  | createText content => exact sound.create rfl rfl
  | createFragment => exact sound.create rfl rfl
  | append parent child =>
      apply sound.append (valid parent (by simp [Operation.nodes]))
      · exact valid child (by simp [Operation.nodes])
      exact fun part member => separate (part, parent) (List.mem_map.mpr ⟨part, member, rfl⟩)
  | appendText parent content =>
      exact sound.appendText (valid parent (by simp [Operation.nodes])) content
  | setChildren parent children =>
      apply sound.setChildren (valid parent (by simp [Operation.nodes]))
      · exact fun child member => valid child (List.mem_cons_of_mem parent member)
      · intro child member part isPart
        have isMoved : part ∈ children.flatMap document.parts :=
          List.mem_flatMap.mpr ⟨child, member, isPart⟩
        exact separate (part, parent) (List.mem_map.mpr ⟨part, isMoved, rfl⟩)
  | paragraphs id force =>
      change (document.paragraphs id force).Sound
      rcases sound.paragraphs (valid id (by simp [Operation.nodes])) force with
        same | ⟨parts, regrouped⟩
      · rw [same]
        exact sound
      · exact regrouped.sound

/-! ## All operations -/

theorem Consistent.run (consistent : document.Consistent) {operations : List Operation}
    (valid : Throughout Operation.Valid document operations) :
    (document.run operations).Consistent := by
  induction operations generalizing document with
  | nil => exact consistent
  | cons operation rest ih => exact ih (consistent.apply valid.1) valid.2

theorem Sound.run (sound : document.Sound) {operations : List Operation}
    (valid : Throughout Operation.Valid document operations)
    (separate : Throughout Operation.Separate document operations) :
    (document.run operations).Sound := by
  induction operations generalizing document with
  | nil => exact sound
  | cons operation rest ih =>
      exact ih (sound.apply valid.1 separate.1) valid.2 separate.2

/-- After any sequence of operations on existing nodes, a node is listed by the node that
it names as its parent and by no other one, and listed there once; fragments are not
listed and have no parent.  If no node was placed below itself or one of its own
descendants, no node is above itself. -/
theorem operations_keep_links (operations : List Operation)
    (valid : Throughout Operation.Valid .empty operations) :
    let document := Document.empty.run operations
    (∀ parent child,
      (child ∈ document.children parent ↔ document.parent? child = some parent) ∧
        (document.children parent).count child ≤ 1) ∧
      (∀ id, (document.node id).kind = .fragment →
        document.parent? id = none ∧ ∀ parent, id ∉ document.children parent) ∧
      (Throughout Operation.Separate .empty operations →
        ∀ id, ¬Relation.TransGen (fun child above => document.parent? child = some above)
          id id) := by
  intro document
  have consistent : document.Consistent := Consistent.empty.run valid
  refine ⟨?_, ?_, ?_⟩
  · intro parent child
    exact ⟨(consistent.linked parent child).symm, consistent.count_children parent child⟩
  · intro id isFragment
    have free := consistent.parent?_of_fragment isFragment
    exact ⟨free, consistent.not_mem_children free⟩
  · intro separate
    exact (Sound.empty.run valid separate).acyclic

/-- A fragment is dissolved in a list whose children are replaced afterwards, one of them
named twice; then the children of the root are regrouped. -/
theorem operations_keep_links_dissolving :
    let operations : List Operation :=
      [.createElement "list" Level.environment .opening, .append 0 1, .createFragment,
        .createElement "item" Level.command .plain, .createText "a", .append 2 3,
        .append 2 4, .append 1 2, .setChildren 1 [4, 3, 4],
        .createElement "par" Level.par .plain, .append 0 5, .appendText 0 "b",
        .paragraphs 0 false]
    let document := Document.empty.run operations
    (document.children 0, document.children 1, document.children 5, document.parent? 2) =
        ([7, 5], [3, 4], [6], none) ∧
      (∀ parent child,
        (child ∈ document.children parent ↔ document.parent? child = some parent) ∧
          (document.children parent).count child ≤ 1) ∧
      (∀ id, (document.node id).kind = .fragment →
        document.parent? id = none ∧ ∀ parent, id ∉ document.children parent) ∧
      ∀ id, ¬Relation.TransGen (fun child above => document.parent? child = some above)
        id id := by
  intro operations document
  have valid : Throughout Operation.Valid .empty operations := by decide +kernel
  -- Only nodes without children are placed anywhere.
  have leaves : Throughout (fun document operation => ∀ place ∈ operation.placed document,
      document.children place.1 = [] ∧ place.1 ≠ place.2) .empty operations := by
    decide +kernel
  have separate : Throughout Operation.Separate .empty operations := by
    apply leaves.mono
    intro document operation isLeaf place member
    exact Sound.not_reaches_of_childless (isLeaf place member).1 (isLeaf place member).2
  obtain ⟨agree, fragments, acyclic⟩ := operations_keep_links operations valid
  exact ⟨by decide +kernel, agree, fragments, acyclic separate⟩

end TexTree.Document
