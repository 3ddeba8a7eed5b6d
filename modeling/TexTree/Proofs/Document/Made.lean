import TexTree.Proofs.Document.Extension

/-!
# Nodes under construction

A node that is under construction has no parent yet, and what it has taken from its arguments
closes nothing (`Document.Made`).  It stays so while the document is extended and while the
node itself is changed, filled with text and given children.
-/

namespace TexTree

namespace Document

/-- A new node that is under construction. -/
structure Made (before document : Document) (id : NodeId) : Prop where
  new : before.size ≤ id
  inside : id < document.size
  free : document.parent? id = none
  whole : (document.node id).kind ≠ .fragment
  plain : ∀ child ∈ document.children id,
    (document.node child).isCloser = false ∧ (document.node id).Admits (document.node child)
  below : ∀ child ∈ document.children id, ∀ inner ∈ document.children child,
    document.Suits child inner

/-- A new fragment. -/
structure MadeFragment (before document : Document) (id : NodeId) : Prop where
  new : before.size ≤ id
  inside : id < document.size
  free : document.parent? id = none
  fragment : (document.node id).kind = .fragment

variable {before document : Document} {id : NodeId}

theorem Made.ready (made : Made before document id) : document.Ready id where
  inside := made.inside
  free := made.free
  whole := made.whole
  suits child member := .inr (made.plain child member)

/-- A node under construction is not changed while others are built. -/
theorem Made.extend (made : Made before document id) (sound : document.Sound)
    {after : Document} (ext : Extends none document after) : Made before after id := by
  have inside : ∀ {child}, child ∈ document.children id → child < document.size :=
    fun member => sound.lt_size member
  have children := ext.children id made.inside (untouched_none _ _)
  constructor
  · exact made.new
  · exact Nat.lt_of_lt_of_le made.inside ext.size_le
  · rw [ext.parents id made.inside (untouched_none _ _)]
    exact made.free
  · intro fragment
    exact made.whole ((ext.fragments id made.inside).mp fragment)
  · intro child member
    rw [children] at member
    have plain := Node.suits_congr (ext.traits id made.inside) (ext.traits child (inside member))
    obtain ⟨opens, admits⟩ := made.plain child member
    have sameCloser := congrArg Node.isCloser (ext.traits child (inside member))
    refine ⟨sameCloser.trans opens, ?_⟩
    exact (plain.mpr (.inr ⟨opens, admits⟩)).admits
  · intro child member inner isInner
    rw [children] at member
    rw [ext.children child (inside member) (untouched_none _ _)] at isInner
    exact (Node.suits_congr (ext.traits child (inside member))
      (ext.traits inner (sound.lt_size isInner))).mpr (made.below child member inner isInner)

section Changing

variable {change : Node → Node} (parent : ∀ inner, (change inner).parent = inner.parent)
  (children : ∀ inner, (change inner).children = inner.children)
  (kind : ∀ inner, (change inner).kind = inner.kind)
include parent children kind

/-- The node itself may be changed, as long as it admits the same nodes. -/
theorem Made.modify (made : Made before document id) (sound : document.Sound)
    (admits : ∀ inner next, (change inner).Admits next ↔ inner.Admits next) :
    Made before (document.modify id change) id := by
  have self := node_modify_self change made.inside
  have keptChildren := children_modify change children document id
  have other : ∀ child ∈ document.children id,
      (document.modify id change).node child = document.node child := by
    intro child member
    exact node_modify_of_ne change (Ne.symm (sound.ne_of_mem member))
  constructor
  · exact made.new
  · simpa using made.inside
  · rw [parent?_modify change parent]
    exact made.free
  · rw [self, kind]
    exact made.whole
  · intro child member
    rw [keptChildren] at member
    rw [self, other child member, admits]
    exact made.plain child member
  · intro child member inner isInner
    rw [keptChildren] at member isInner
    have innerSame : (document.modify id change).node inner = document.node inner := by
      apply node_modify_of_ne
      intro equal
      exact sound.not_mem_children made.free child (equal ▸ isInner)
    unfold Suits
    rw [other child member, innerSame]
    exact made.below child member inner isInner

/-- A node without children may be changed in any way. -/
theorem Made.define (made : Made before document id) (childless : document.children id = []) :
    Made before (document.modify id change) id := by
  have keptChildren := children_modify change children document id
  constructor
  · exact made.new
  · simpa using made.inside
  · rw [parent?_modify change parent]
    exact made.free
  · rw [node_modify_self change made.inside, kind]
    exact made.whole
  · simp [keptChildren, childless]
  · simp [keptChildren, childless]

end Changing

/-- What a fragment has collected is moved into the node. -/
theorem Made.appendFragment (made : Made before document id) (orderly : document.Orderly)
    {fragment : NodeId} (madeFragment : MadeFragment before document fragment)
    (admits : ∀ next, (document.node id).Admits next) :
    Made before (document.append id fragment) id := by
  have sound := orderly.sound
  have isFragment := madeFragment.fragment
  have core := core_append document id fragment
  have traits : ∀ other, ((document.append id fragment).node other).traits =
      (document.node other).traits := fun other => Node.traits_eq_of_core_eq (core other)
  have different : id ≠ fragment := by
    intro equal
    exact made.whole (equal ▸ isFragment)
  have children : (document.append id fragment).children id =
      document.children id ++ document.children fragment := by
    rw [sound.consistent.children_append_fragment made.inside isFragment, if_neg different,
      if_pos rfl]
  constructor
  · exact made.new
  · simpa using made.inside
  · rw [sound.consistent.parent?_append_fragment isFragment, if_neg]
    · exact made.free
    · exact sound.not_mem_children made.free fragment
  · rw [Node.kind_eq_of_core_eq (core id)]
    exact made.whole
  · intro child member
    rw [children, List.mem_append] at member
    have opens : (document.node child).isCloser = false := by
      rcases member with old | new
      · exact (made.plain child old).1
      · exact (orderly.not_isCloser_of_fragment isFragment new).1
    have same := (Node.suits_congr (traits id) (traits child)).mpr (.inr ⟨opens, admits _⟩)
    exact ⟨(congrArg Node.isCloser (traits child)).trans opens, same.admits⟩
  · intro child member inner isInner
    have before : ∀ {top}, child ∈ document.children top → inner ∈ document.children child := by
      intro top listed
      rw [sound.consistent.children_append_fragment made.inside isFragment] at isInner
      have notNode : child ≠ id := by
        intro equal
        exact sound.not_mem_children made.free top (equal ▸ listed)
      have notFragment : child ≠ fragment := by
        intro equal
        exact sound.not_mem_children madeFragment.free top (equal ▸ listed)
      rw [if_neg notFragment, if_neg notNode, List.append_nil] at isInner
      exact isInner
    unfold Suits
    rw [Node.suits_congr (traits child) (traits inner)]
    rw [children, List.mem_append] at member
    rcases member with old | new
    · exact made.below child old inner (before old)
    · exact (orderly.not_isCloser_of_fragment isFragment new).2 inner (before new)

/-- Text suits every node. -/
theorem Made.appendText (made : Made before document id) (orderly : document.Orderly)
    (content : String) : Made before (document.appendText id content) id := by
  have sound := orderly.sound
  have appended := textAppended made.inside content
  have later := orderly.appendText made.inside made.free content
  have ready := made.ready.appendText orderly content
  have traits := appended.traits id made.inside
  constructor
  · exact made.new
  · exact ready.inside
  · exact ready.free
  · exact ready.whole
  · intro child member
    rcases appended.mem child member with old | ⟨_, text, core⟩
    · obtain ⟨opens, admits⟩ := made.plain child old
      have childTraits := appended.traits child (sound.lt_size old)
      have same := (Node.suits_congr traits childTraits).mpr (.inr ⟨opens, admits⟩)
      exact ⟨(congrArg Node.isCloser childTraits).trans opens, same.admits⟩
    · exact suits_text (later.proper id) core
  · intro child member inner isInner
    rcases appended.mem child member with old | ⟨isNew, _⟩
    · rw [appended.children child (sound.ne_of_mem old)] at isInner
      exact (Node.suits_congr (appended.traits child (sound.lt_size old))
        (appended.traits inner (sound.lt_size isInner))).mpr (made.below child old inner isInner)
    · rw [isNew, appended.children _ (Nat.ne_of_gt made.inside),
        children_of_size_le (Nat.le_refl _)] at isInner
      cases isInner

end Document

end TexTree
