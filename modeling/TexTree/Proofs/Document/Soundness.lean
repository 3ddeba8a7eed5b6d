import Mathlib.Logic.Relation
import TexTree.Proofs.Document.Consistency

/-!
# Sound documents

A document is sound if its links are those of a forest: it is consistent, and going
from nodes to their children ends.  The last point is stated by a rank that goes down
from each node to its children, which makes it easy to see that it survives a change.

Adding a node and changing what a node says keep a document sound.  Moving a node
does so as long as the node is not put below itself.
-/

namespace TexTree.Document

/-- The links of the document are those of a forest. -/
structure Sound (document : Document) : Prop where
  /-- A node is listed by its parent and by no other node. -/
  linked : ∀ id child, document.parent? child = some id ↔ child ∈ document.children id
  /-- A node is listed once. -/
  nodup : ∀ id, (document.children id).Nodup
  /-- Fragments are not listed. -/
  whole : ∀ id child, child ∈ document.children id →
    (document.node child).kind ≠ .fragment
  /-- No node lies below itself. -/
  ranked : ∃ rank : NodeId → Nat, ∀ id child, child ∈ document.children id →
    rank child < rank id

/-- One node lies at or below another one. -/
def Reaches (document : Document) : NodeId → NodeId → Prop :=
  Relation.ReflTransGen fun id child => child ∈ document.children id

namespace Sound

variable {document : Document}

theorem consistent (sound : document.Sound) : document.Consistent :=
  ⟨sound.linked, sound.nodup, sound.whole⟩

/-- A consistent document in which going down ends is sound. -/
theorem of_consistent (consistent : document.Consistent)
    (ranked : ∃ rank : NodeId → Nat, ∀ id child, child ∈ document.children id →
      rank child < rank id) : document.Sound :=
  ⟨consistent.linked, consistent.nodup, consistent.whole, ranked⟩

theorem lt_size (sound : document.Sound) {id child : NodeId}
    (member : child ∈ document.children id) : child < document.size :=
  sound.consistent.lt_size member

/-- A node without a parent is not listed. -/
theorem not_mem_children (sound : document.Sound) {child : NodeId}
    (free : document.parent? child = none) (id : NodeId) : child ∉ document.children id :=
  sound.consistent.not_mem_children free id

/-- Only a node itself lies at or above a node without a parent. -/
theorem eq_of_reaches (sound : document.Sound) {above id : NodeId}
    (free : document.parent? id = none) (path : document.Reaches above id) : above = id := by
  rcases Relation.ReflTransGen.cases_tail path with equal | ⟨middle, _, member⟩
  · exact equal.symm
  · exact absurd member (sound.not_mem_children free middle)

theorem empty : Document.empty.Sound := by
  refine of_consistent Consistent.empty ⟨fun _ => 0, ?_⟩
  intro id child member
  have linked := (Consistent.empty.linked id child).mpr member
  cases child with
  | zero => cases linked
  | succ child =>
      rw [parent?_of_size_le (by simp [Document.empty, size])] at linked
      cases linked

/-- A document with the same links is sound, unless a child became a fragment. -/
theorem of_same_links (sound : document.Sound) {other : Document}
    (sameParents : ∀ id, other.parent? id = document.parent? id)
    (sameChildren : ∀ id, other.children id = document.children id)
    (whole : ∀ id, (document.node id).kind ≠ .fragment → (other.node id).kind ≠ .fragment) :
    other.Sound := by
  obtain ⟨rank, decreasing⟩ := sound.ranked
  refine of_consistent ?_ ⟨rank, fun id child member => decreasing id child ?_⟩
  · exact sound.consistent.of_same_links sameParents sameChildren fun id _ => whole id
  · rwa [sameChildren] at member

theorem create (sound : document.Sound) {node : Node} (childless : node.children = [])
    (parentless : node.parent = none) : (document.create node).2.Sound := by
  obtain ⟨rank, decreasing⟩ := sound.ranked
  refine of_consistent (sound.consistent.create childless parentless) ⟨rank, ?_⟩
  intro id child member
  rw [children_create childless] at member
  exact decreasing id child member

/-- A bound for the ranks of finitely many nodes. -/
theorem exists_rank_bound (rank : NodeId → Nat) (nodes : List NodeId) :
    ∃ bound, ∀ node ∈ nodes, rank node < bound := by
  induction nodes with
  | nil => exact ⟨0, by simp⟩
  | cons node rest ih =>
      obtain ⟨bound, bounded⟩ := ih
      refine ⟨bound + rank node + 1, ?_⟩
      intro other member
      rcases List.mem_cons.mp member with rfl | later
      · omega
      · have lower := bounded other later
        omega

/-- Moving nodes to a new parent keeps a document sound if that parent does not
lie at or below any of them. -/
theorem of_moved (sound : document.Sound) {other : Document} {parent : NodeId}
    {moved : List NodeId} (nodup : moved.Nodup)
    (entire : ∀ child ∈ moved, (document.node child).kind ≠ .fragment)
    (apart : ∀ child ∈ moved, ¬document.Reaches child parent)
    (parents : ∀ id, other.parent? id =
      if id ∈ moved then some parent else document.parent? id)
    (children : ∀ id, other.children id =
      (document.children id).filter (· ∉ moved) ++ if id = parent then moved else [])
    (kinds : ∀ id, (other.node id).kind = (document.node id).kind) : other.Sound := by
  classical
  obtain ⟨rank, decreasing⟩ := sound.ranked
  obtain ⟨bound, bounded⟩ := exists_rank_bound rank moved
  apply of_consistent
  · exact sound.consistent.of_moved nodup entire parents children kinds
  · -- Everything at or above the new parent is lifted above the moved nodes.
    refine ⟨fun id => rank id + if document.Reaches id parent then bound else 0, ?_⟩
    intro id child member
    rw [children, List.mem_append, List.mem_filter] at member
    rcases member with ⟨old, _⟩ | listed
    · have lower := decreasing id child old
      by_cases above : document.Reaches child parent
      · have higher : document.Reaches id parent := Relation.ReflTransGen.head old above
        simp only [if_pos above, if_pos higher]
        omega
      · simp only [if_neg above]
        omega
    · obtain ⟨rfl, new⟩ : id = parent ∧ child ∈ moved := by simpa using listed
      have self : document.Reaches id id := Relation.ReflTransGen.refl
      have lower := bounded child new
      simp only [if_pos self, if_neg (apart child new)]
      omega

/-- Appending a node or dissolving a fragment keeps the document sound if what is moved
does not get below itself. -/
theorem append (sound : document.Sound) {parent child : NodeId}
    (parentInside : parent < document.size) (childInside : child < document.size)
    (apart : ∀ part ∈ document.parts child, ¬document.Reaches part parent) :
    (document.append parent child).Sound := by
  have consistent := sound.consistent
  apply sound.of_moved (consistent.nodup_parts child)
  · intro part
    exact consistent.whole_of_mem_parts
  · exact apart
  · exact consistent.parent?_append childInside parent
  · exact consistent.children_append parentInside child
  · intro id
    exact Node.kind_eq_of_core_eq (core_append document parent child id)

/-- Moving a node keeps the document sound if the node does not get below
itself. -/
theorem attach (sound : document.Sound) {parent child : NodeId}
    (parentInside : parent < document.size) (childInside : child < document.size)
    (entire : (document.node child).kind ≠ .fragment)
    (apart : ¬document.Reaches child parent) : (document.attach parent child).Sound := by
  rw [← append_of_not_fragment entire]
  apply sound.append parentInside childInside
  intro part member
  rw [parts_of_not_fragment entire, List.mem_singleton] at member
  exact member ▸ apart

/-- The children of a node are children of no other node. -/
theorem not_mem_of_mem (sound : document.Sound) {id other child : NodeId}
    (member : child ∈ document.children id) (different : other ≠ id) :
    child ∉ document.children other :=
  sound.consistent.not_mem_of_mem member different

/-- Dissolving a fragment in a node keeps the document sound if the node lies
outside of the fragment. -/
theorem append_fragment (sound : document.Sound) {parent fragment : NodeId}
    (inside : parent < document.size) (isFragment : (document.node fragment).kind = .fragment)
    (apart : ∀ part ∈ document.children fragment, ¬document.Reaches part parent) :
    (document.append parent fragment).Sound := by
  apply sound.append inside (lt_size_of_fragment isFragment)
  rwa [parts_of_fragment isFragment]

/-- A node without a parent can take up any other node. -/
theorem not_reaches (sound : document.Sound) {parent child : NodeId}
    (free : document.parent? parent = none) (different : child ≠ parent) :
    ¬document.Reaches child parent := by
  intro path
  exact different (sound.eq_of_reaches free path)

/-- A node without children can be put anywhere. -/
theorem not_reaches_of_childless {parent child : NodeId}
    (childless : document.children child = []) (different : child ≠ parent) :
    ¬document.Reaches child parent := by
  intro path
  rcases Relation.ReflTransGen.cases_head path with equal | ⟨middle, member, _⟩
  · exact different equal
  · rw [childless] at member
    cases member

/-- No child of a node has the node below itself. -/
theorem not_reaches_of_mem (sound : document.Sound) {id child : NodeId}
    (member : child ∈ document.children id) : ¬document.Reaches child id := by
  obtain ⟨rank, decreasing⟩ := sound.ranked
  have lower : ∀ {below}, document.Reaches child below → rank below ≤ rank child := by
    intro below path
    induction path with
    | refl => exact Nat.le_refl _
    | tail _ step ih => exact Nat.le_trans (Nat.le_of_lt (decreasing _ _ step)) ih
  intro path
  have first := decreasing id child member
  have second := lower path
  omega

/-- A node is not its own child. -/
theorem ne_of_mem (sound : document.Sound) {id child : NodeId}
    (member : child ∈ document.children id) : child ≠ id := by
  intro equal
  subst equal
  exact sound.not_reaches_of_mem member Relation.ReflTransGen.refl

/-- Nodes stay apart as long as the links above one of them stay as they are. -/
theorem reaches_of_reaches (sound : document.Sound) {other : Document}
    (otherSound : other.Sound) {above id : NodeId}
    (kept : ∀ below, document.Reaches below id → other.parent? below = document.parent? below)
    (path : other.Reaches above id) : document.Reaches above id := by
  induction path using Relation.ReflTransGen.head_induction_on with
  | refl => exact Relation.ReflTransGen.refl
  | @head above below step _ ih =>
      have linked := (otherSound.linked above below).mpr step
      rw [kept below ih] at linked
      exact Relation.ReflTransGen.head ((sound.linked above below).mp linked) ih

/-- Extending a text at the end of a node or adding one keeps a document sound. -/
theorem appendText (sound : document.Sound) {parent : NodeId}
    (inside : parent < document.size) (content : String) :
    (document.appendText parent content).Sound := by
  rcases document.appendText_cases parent content with
    ⟨last, start, _, _, equal⟩ | ⟨_, equal⟩
  · rw [equal]
    apply sound.of_same_links
    · intro id
      apply parent?_modify
      intro node
      rfl
    · intro id
      apply children_modify
      intro node
      rfl
    · intro id whole
      rw [node_modify]
      split
      · simp
      · exact whole
  · have created : (document.create (textNode content)).2.Sound := sound.create rfl rfl
    rw [equal]
    apply created.attach
    · rw [size_create]
      exact Nat.lt_succ_of_lt inside
    · simp
    · simp [textNode]
    · apply not_reaches_of_childless
      · rw [children_create rfl, children_of_size_le (Nat.le_refl _)]
      · exact Nat.ne_of_gt inside

/-- Releasing the children of a node keeps a document sound. -/
theorem release (sound : document.Sound) (id : NodeId) : (document.release id).Sound := by
  obtain ⟨rank, decreasing⟩ := sound.ranked
  refine of_consistent (sound.consistent.release id) ⟨rank, ?_⟩
  intro above below member
  rw [children_release] at member
  split at member
  · cases member
  · exact decreasing above below member

/-- A state of replacing the children of a node: what lies above that node is as it was at
the beginning, and the other nodes have got no children. -/
structure Replacing (document : Document) (parent : NodeId) (middle : Document) : Prop where
  sound : middle.Sound
  above : ∀ id, document.Reaches id parent → middle.parent? id = document.parent? id
  subset : ∀ id, id ≠ parent → middle.children id ⊆ document.children id
  kinds : ∀ id, (middle.node id).kind = (document.node id).kind

theorem Replacing.release (sound : document.Sound) (parent : NodeId) :
    Replacing document parent (document.release parent) where
  sound := sound.release parent
  above id path := by
    rw [parent?_release, if_neg]
    intro member
    exact sound.not_reaches_of_mem member path
  subset id different := by
    rw [children_release, if_neg different]
    exact List.Subset.refl _
  kinds id := Node.kind_eq_of_core_eq (core_release document parent id)

/-- What lies above the node at some moment did so at the beginning. -/
theorem Replacing.reaches {parent : NodeId} {middle : Document}
    (replacing : Replacing document parent middle) (sound : document.Sound) {id : NodeId}
    (path : middle.Reaches id parent) : document.Reaches id parent :=
  sound.reaches_of_reaches replacing.sound replacing.above path

theorem Replacing.apart {parent child : NodeId} {middle : Document}
    (replacing : Replacing document parent middle) (sound : document.Sound)
    (apart : ∀ part ∈ document.parts child, ¬document.Reaches part parent) :
    ∀ part ∈ middle.parts child, ¬middle.Reaches part parent := by
  intro part member path
  by_cases isFragment : (document.node child).kind = .fragment
  · rw [parts_of_fragment ((replacing.kinds child).trans isFragment)] at member
    by_cases isParent : child = parent
    · -- The node itself may be a fragment; by then it holds what was placed in it before.
      exact replacing.sound.not_reaches_of_mem (isParent ▸ member) path
    · refine apart part ?_ (replacing.reaches sound path)
      rw [parts_of_fragment isFragment]
      exact replacing.subset child isParent member
  · rw [parts_of_not_fragment (replacing.kinds child ▸ isFragment)] at member
    refine apart part ?_ (replacing.reaches sound path)
    rwa [parts_of_not_fragment isFragment]

theorem Replacing.append {parent child : NodeId} {middle : Document}
    (replacing : Replacing document parent middle) (sound : document.Sound)
    (parentInside : parent < middle.size) (childInside : child < middle.size)
    (apart : ∀ part ∈ document.parts child, ¬document.Reaches part parent) :
    Replacing document parent (middle.append parent child) where
  sound := replacing.sound.append parentInside childInside (replacing.apart sound apart)
  above id path := by
    have stays : id ∉ middle.parts child := by
      intro member
      apply replacing.apart sound apart id member
      apply replacing.sound.reaches_of_reaches sound ?_ path
      exact fun below lower => (replacing.above below (replacing.reaches sound lower)).symm
    rw [replacing.sound.consistent.parent?_append childInside, if_neg stays]
    exact replacing.above id path
  subset id different := by
    rw [replacing.sound.consistent.children_append parentInside, if_neg different,
      List.append_nil]
    exact List.Subset.trans (List.filter_subset_self _) (replacing.subset id different)
  kinds id :=
    (Node.kind_eq_of_core_eq (core_append middle parent child id)).trans (replacing.kinds id)

/-- Replacing the children of a node keeps a document sound if the node does not get
below itself. -/
theorem setChildren (sound : document.Sound) {parent : NodeId} {children : List NodeId}
    (inside : parent < document.size) (childrenInside : ∀ child ∈ children, child < document.size)
    (apart : ∀ child ∈ children, ∀ part ∈ document.parts child,
      ¬document.Reaches part parent) : (document.setChildren parent children).Sound := by
  have replaced : Replacing document parent (document.setChildren parent children) := by
    apply setChildren_induction (Replacing.release sound parent)
    intro child member middle sameSize replacing
    rw [← sameSize] at inside childrenInside
    exact replacing.append sound inside (childrenInside child member) (apart child member)
  exact replaced.sound

/-- No node is above itself. -/
theorem acyclic (sound : document.Sound) (id : NodeId) :
    ¬Relation.TransGen (fun child above => document.parent? child = some above) id id := by
  obtain ⟨rank, decreasing⟩ := sound.ranked
  have higher : ∀ {above}, Relation.TransGen
      (fun child above => document.parent? child = some above) id above →
      rank id < rank above := by
    intro above path
    induction path with
    | single linked => exact decreasing _ _ ((sound.linked _ _).mp linked)
    | tail _ linked ih => exact Nat.lt_trans ih (decreasing _ _ ((sound.linked _ _).mp linked))
  intro path
  exact Nat.lt_irrefl _ (higher path)

end Sound

end TexTree.Document
