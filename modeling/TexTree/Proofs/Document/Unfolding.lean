import Mathlib.Data.Finset.Card
import Mathlib.Data.Finset.Range
import TexTree.Document.Source
import TexTree.Proofs.Document.Soundness

/-!
# Trees of sound documents

Unfolding a document stops at a depth.  In a sound document that depth is never
reached, so the tree of a node consists of the node and of the trees of its
children (`Sound.tree_eq`).  Everything that is computed by recursion on trees
thereby becomes a recursion on the links.

A tree also does not change as long as the nodes in it keep their children and
what they say apart from attributes and numbers (`bare_tree_congr`).
-/

namespace TexTree

namespace Node

/-- The parts of a node that decide on its text and its source. -/
def essence (node : Node) : Node := { node.traits with kind := node.kind }

/-- The core determines the essence. -/
theorem essence_eq_of_core_eq {left right : Node} (equal : left.core = right.core) :
    left.essence = right.essence := by
  have same := congrArg essence equal
  simpa [core, essence, traits] using same

/-- The essence determines the kind. -/
theorem kind_eq_of_essence_eq {left right : Node} (equal : left.essence = right.essence) :
    left.kind = right.kind := by
  have same := congrArg Node.kind equal
  exact same

/-- The essence determines the traits. -/
theorem traits_eq_of_essence_eq {left right : Node} (equal : left.essence = right.essence) :
    left.traits = right.traits := by
  have same := congrArg traits equal
  exact same

end Node

namespace Tree

mutual

/-- The tree with the essence of each node in place of the node. -/
def bare : Tree → Tree
  | .node id data children => .node id data.essence (bareAll children)

/-- Several trees with the essences of their nodes. -/
def bareAll : List Tree → List Tree
  | [] => []
  | tree :: rest => tree.bare :: bareAll rest

end

theorem bareAll_eq (trees : List Tree) : bareAll trees = trees.map bare := by
  induction trees with
  | nil => rfl
  | cons tree rest ih => rw [bareAll, ih, List.map_cons]

theorem textAll_eq (trees : List Tree) :
    (textAll trees).toList = trees.flatMap fun tree => tree.text.toList := by
  induction trees with
  | nil => rfl
  | cons tree rest ih => rw [textAll, String.toList_append, ih, List.flatMap_cons]

mutual

theorem text_bare : (tree : Tree) → tree.bare.text = tree.text
  | .node id data children => by
      rw [bare, text, text, textAll_bareAll children]
      rfl

theorem textAll_bareAll : (trees : List Tree) → textAll (bareAll trees) = textAll trees
  | [] => rfl
  | tree :: rest => by rw [bareAll, textAll, textAll, text_bare tree, textAll_bareAll rest]

end

mutual

theorem isBlank_bare : (tree : Tree) → tree.bare.isBlank = tree.isBlank
  | .node id data children => by
      rw [bare, isBlank, isBlank, allBlank_bareAll children]
      rfl

theorem allBlank_bareAll : (trees : List Tree) → allBlank (bareAll trees) = allBlank trees
  | [] => rfl
  | tree :: rest => by
      rw [bareAll, allBlank, allBlank, isBlank_bare tree, allBlank_bareAll rest]

end

end Tree

namespace Document

variable {document : Document}

/-- The ranks of a sound document can be chosen below the number of nodes. -/
theorem Sound.exists_bounded_rank (sound : document.Sound) :
    ∃ rank : NodeId → Nat, (∀ id, rank id ≤ document.size) ∧
      ∀ id child, child ∈ document.children id → rank child < rank id := by
  obtain ⟨rank, decreasing⟩ := sound.ranked
  let lower (id : NodeId) : Finset Nat :=
    (Finset.range document.size).filter fun other => rank other < rank id
  refine ⟨fun id => (lower id).card, ?_, ?_⟩
  · intro id
    calc (lower id).card ≤ (Finset.range document.size).card := Finset.card_filter_le _ _
      _ = document.size := Finset.card_range _
  · intro id child member
    have less := decreasing id child member
    apply Finset.card_lt_card
    rw [Finset.ssubset_iff_of_subset]
    · refine ⟨child, ?_, ?_⟩
      · simp only [lower, Finset.mem_filter, Finset.mem_range]
        exact ⟨sound.lt_size member, less⟩
      · simp [lower]
    · intro other inside
      simp only [lower, Finset.mem_filter, Finset.mem_range] at inside ⊢
      exact ⟨inside.1, Nat.lt_trans inside.2 less⟩

/-- A consistent document in which no node is above itself is sound: a node ranks by the
number of nodes below it. -/
theorem Sound.of_acyclic (consistent : document.Consistent)
    (acyclic : ∀ id,
      ¬Relation.TransGen (fun child above => document.parent? child = some above) id id) :
    document.Sound := by
  classical
  let below (id : NodeId) : Finset Nat := (Finset.range document.size).filter fun other =>
    Relation.TransGen (fun child above => document.parent? child = some above) other id
  refine of_consistent consistent ⟨fun id => (below id).card, fun id child member => ?_⟩
  have linked := (consistent.linked id child).mpr member
  apply Finset.card_lt_card
  rw [Finset.ssubset_iff_of_subset]
  · refine ⟨child, ?_, ?_⟩
    · simp only [below, Finset.mem_filter, Finset.mem_range]
      exact ⟨consistent.lt_size member, .single linked⟩
    · simp only [below, Finset.mem_filter, not_and]
      exact fun _ => acyclic child
  · intro other inside
    simp only [below, Finset.mem_filter] at inside ⊢
    exact ⟨inside.1, inside.2.tail linked⟩

/-- Unfolding deeper than the rank of a node shows nothing new. -/
theorem unfold_succ {rank : NodeId → Nat}
    (decreasing : ∀ id child, child ∈ document.children id → rank child < rank id)
    (depth : Nat) (id : NodeId) (deep : rank id ≤ depth) :
    document.unfold (depth + 1) id = document.unfold depth id := by
  induction depth generalizing id with
  | zero =>
      have childless : document.children id = [] := by
        rw [List.eq_nil_iff_forall_not_mem]
        intro child member
        have less := decreasing id child member
        omega
      simp [unfold, childless]
  | succ depth ih =>
      have same : (document.children id).map (document.unfold (depth + 1)) =
          (document.children id).map (document.unfold depth) := by
        apply List.map_congr_left
        intro child member
        have less := decreasing id child member
        exact ih child (by omega)
      rw [unfold, same]
      rfl

/-- The tree of a node consists of the node and of the trees of its children. -/
theorem Sound.tree_eq (sound : document.Sound) (id : NodeId) :
    document.tree id =
      .node id (document.node id) ((document.children id).map document.tree) := by
  obtain ⟨rank, bounded, decreasing⟩ := sound.exists_bounded_rank
  have same := unfold_succ decreasing document.size id (bounded id)
  rw [tree, ← same]
  rfl

/-- Induction from the children of each node to the node. -/
theorem Sound.induction (sound : document.Sound) {motive : NodeId → Prop}
    (step : ∀ id, (∀ child ∈ document.children id, motive child) → motive id) (id : NodeId) :
    motive id := by
  obtain ⟨rank, decreasing⟩ := sound.ranked
  have all : ∀ bound id, rank id < bound → motive id := by
    intro bound
    induction bound with
    | zero =>
        intro id impossible
        omega
    | succ bound ih =>
        intro id less
        apply step
        intro child member
        have lower := decreasing id child member
        exact ih child (by omega)
  exact all (rank id + 1) id (Nat.lt_succ_self _)

/-- A tree depends only on the children and the essences of its nodes. -/
theorem bare_tree_congr (sound : document.Sound) {other : Document} (otherSound : other.Sound)
    {top : NodeId}
    (same : ∀ id, document.Reaches top id → other.children id = document.children id ∧
      (other.node id).essence = (document.node id).essence) :
    (other.tree top).bare = (document.tree top).bare := by
  induction top using sound.induction with
  | step top ih =>
      obtain ⟨sameChildren, sameEssence⟩ := same top Relation.ReflTransGen.refl
      rw [sound.tree_eq, otherSound.tree_eq, Tree.bare, Tree.bare, Tree.bareAll_eq,
        Tree.bareAll_eq, sameChildren, sameEssence, List.map_map, List.map_map]
      congr 1
      apply List.map_congr_left
      intro child member
      apply ih child member
      intro id path
      exact same id (Relation.ReflTransGen.head member path)

/-- The text of a node that is no text consists of the texts of its children. -/
theorem Sound.textContent_toList (sound : document.Sound) {id : NodeId}
    (inner : ∀ content, (document.node id).kind ≠ .text content) :
    (document.textContent id).toList =
      (document.children id).flatMap fun child => (document.textContent child).toList := by
  rw [textContent, sound.tree_eq, Tree.text]
  split
  · next content isText => exact absurd isText (inner content)
  · rw [Tree.textAll_eq, List.flatMap_map]
    rfl

end Document

end TexTree
