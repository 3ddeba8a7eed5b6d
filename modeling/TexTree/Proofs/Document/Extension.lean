import TexTree.Proofs.Document.NestedParagraphs

/-!
# Extensions of documents

While a node is worked on, the document grows by new nodes, and the node itself
and its children may be rearranged.  Everything else stays where it is and says
what it said.  `Extends` states this for a document and a later one; the node that
is worked on, if there is one, is a parameter.

Old nodes never change their traits, and links between old nodes that are not
touched stay, so that their trees stay as well (`Extends.bare_tree`).
-/

namespace TexTree.Document

/-- A node is not the one that is worked on and none of its children. -/
def Untouched (own : Option NodeId) (document : Document) (id : NodeId) : Prop :=
  ∀ node, own = some node → id ≠ node ∧ document.parent? id ≠ some node

/-- A document grew out of another one while at most the given node was worked
on. -/
structure Extends (own : Option NodeId) (before after : Document) : Prop where
  size_le : before.size ≤ after.size
  traits : ∀ id, id < before.size → (after.node id).traits = (before.node id).traits
  fragments : ∀ id, id < before.size →
    ((after.node id).kind = .fragment ↔ (before.node id).kind = .fragment)
  children : ∀ id, id < before.size → before.Untouched own id →
    after.children id = before.children id
  parents : ∀ id, id < before.size → before.Untouched own id →
    after.parent? id = before.parent? id
  essence : ∀ id, id < before.size → before.Untouched own id →
    (after.node id).essence = (before.node id).essence

/-- A node belongs to the work: it is the one that is worked on, or it is new. -/
def Mine (own : Option NodeId) (before : Document) (id : NodeId) : Prop :=
  own = some id ∨ before.size ≤ id

theorem untouched_none (document : Document) (id : NodeId) : document.Untouched none id := by
  intro node impossible
  cases impossible

namespace Extends

variable {own : Option NodeId} {before document : Document}

theorem refl (document : Document) : Extends own document document where
  size_le := Nat.le_refl _
  traits _ _ := rfl
  fragments _ _ := Iff.rfl
  children _ _ _ := rfl
  parents _ _ _ := rfl
  essence _ _ _ := rfl

/-- Going on with work on new nodes or on the same node. -/
theorem trans (first : Extends own before document) (sound : before.Sound)
    {own' : Option NodeId} {after : Document} (second : Extends own' document after)
    (mine : ∀ node, own' = some node → before.Mine own node) : Extends own before after := by
  have inside : ∀ {id}, id < before.size → id < document.size :=
    fun old => Nat.lt_of_lt_of_le old first.size_le
  have untouched : ∀ id, id < before.size → before.Untouched own id →
      document.Untouched own' id := by
    intro id old isUntouched node isNode
    rcases mine node isNode with same | new
    · rw [first.parents id old isUntouched]
      exact isUntouched node same
    · refine ⟨?_, ?_⟩
      · intro equal
        exact absurd old (Nat.not_lt.mpr (equal ▸ new))
      · rw [first.parents id old isUntouched]
        intro linked
        have above := lt_size_of_mem_children ((sound.linked node id).mp linked)
        exact absurd above (Nat.not_lt.mpr new)
  constructor
  · exact Nat.le_trans first.size_le second.size_le
  · intro id old
    rw [second.traits id (inside old), first.traits id old]
  · intro id old
    rw [second.fragments id (inside old), first.fragments id old]
  · intro id old isUntouched
    rw [second.children id (inside old) (untouched id old isUntouched),
      first.children id old isUntouched]
  · intro id old isUntouched
    rw [second.parents id (inside old) (untouched id old isUntouched),
      first.parents id old isUntouched]
  · intro id old isUntouched
    rw [second.essence id (inside old) (untouched id old isUntouched),
      first.essence id old isUntouched]

/-- A node without a parent that is not worked on is not touched. -/
theorem untouched_of_free {id : NodeId} (free : before.parent? id = none)
    (other : own ≠ some id) : before.Untouched own id := by
  intro node isNode
  refine ⟨?_, by simp [free]⟩
  intro equal
  exact other (equal ▸ isNode)

/-- What is ready stays ready if it is not worked on. -/
theorem ready (ext : Extends own before document) (sound : before.Sound) {id : NodeId}
    (ready : before.Ready id) (other : own ≠ some id) : document.Ready id := by
  have untouched := untouched_of_free ready.free other
  constructor
  · exact Nat.lt_of_lt_of_le ready.inside ext.size_le
  · rw [ext.parents id ready.inside untouched]
    exact ready.free
  · intro fragment
    exact ready.whole ((ext.fragments id ready.inside).mp fragment)
  · intro child member
    rw [ext.children id ready.inside untouched] at member
    exact (Node.suits_congr (ext.traits id ready.inside)
      (ext.traits child (sound.lt_size member))).mpr (ready.suits child member)

/-! ## Steps -/

/-- A change that leaves alone what is not touched. -/
theorem step (ext : Extends own before document) {after : Document}
    (size_le : document.size ≤ after.size)
    (traits : ∀ id, id < before.size → (after.node id).traits = (document.node id).traits)
    (fragments : ∀ id, id < before.size →
      ((after.node id).kind = .fragment ↔ (document.node id).kind = .fragment))
    (untouched : ∀ id, id < before.size → before.Untouched own id →
      after.children id = document.children id ∧ after.parent? id = document.parent? id ∧
        (after.node id).essence = (document.node id).essence) :
    Extends own before after := by
  constructor
  · exact Nat.le_trans ext.size_le size_le
  · intro id old
    rw [traits id old, ext.traits id old]
  · intro id old
    rw [fragments id old, ext.fragments id old]
  · intro id old isUntouched
    rw [(untouched id old isUntouched).1, ext.children id old isUntouched]
  · intro id old isUntouched
    rw [(untouched id old isUntouched).2.1, ext.parents id old isUntouched]
  · intro id old isUntouched
    rw [(untouched id old isUntouched).2.2, ext.essence id old isUntouched]

/-- A change to new nodes only. -/
theorem step_of_same (ext : Extends own before document) {after : Document}
    (size_le : document.size ≤ after.size)
    (same : ∀ id, id < before.size → after.node id = document.node id) :
    Extends own before after := by
  apply ext.step size_le
  · intro id old
    rw [same id old]
  · intro id old
    rw [same id old]
  · intro id old _
    exact ⟨congrArg Node.children (same id old), congrArg Node.parent (same id old),
      congrArg Node.essence (same id old)⟩

theorem create (ext : Extends own before document) (node : Node) :
    Extends own before (document.create node).2 := by
  apply ext.step_of_same
  · simp
  · intro id old
    exact node_create_of_lt node (Nat.lt_of_lt_of_le old ext.size_le)

/-- New nodes can be changed at will. -/
theorem modify_new (ext : Extends own before document) {id : NodeId}
    (new : before.size ≤ id) (change : Node → Node) :
    Extends own before (document.modify id change) := by
  apply ext.step_of_same
  · simp
  · intro other old
    exact node_modify_of_ne change (Nat.ne_of_gt (Nat.lt_of_lt_of_le old new))

/-- A change that touches neither links nor essence can be made anywhere. -/
theorem modify (ext : Extends own before document) (id : NodeId) {change : Node → Node}
    (parent : ∀ node, (change node).parent = node.parent)
    (children : ∀ node, (change node).children = node.children)
    (essence : ∀ node, (change node).essence = node.essence) :
    Extends own before (document.modify id change) := by
  have same : ∀ other, ((document.modify id change).node other).essence =
      (document.node other).essence := by
    intro other
    rw [node_modify]
    split
    · exact essence _
    · rfl
  apply ext.step
  · simp
  · intro other _
    exact Node.traits_eq_of_essence_eq (same other)
  · intro other _
    rw [Node.kind_eq_of_essence_eq (same other)]
  · intro other _ _
    exact ⟨children_modify change children document id other,
      parent?_modify change parent document id other, same other⟩

/-- A new node can be appended to a node that is worked on. -/
theorem attach (ext : Extends own before document) {parent child : NodeId}
    (mine : before.Mine own parent) (inside : parent < document.size)
    (new : before.size ≤ child) (ready : document.Ready child) :
    Extends own before (document.attach parent child) := by
  have core := core_attach document parent child
  apply ext.step
  · simp
  · intro id _
    exact Node.traits_eq_of_core_eq (core id)
  · intro id _
    rw [Node.kind_eq_of_core_eq (core id)]
  · intro id old isUntouched
    have notParent : id ≠ parent := by
      rcases mine with isOwn | isNew
      · exact (isUntouched parent isOwn).1
      · exact Nat.ne_of_lt (Nat.lt_of_lt_of_le old isNew)
    have notChild : id ≠ child := Nat.ne_of_lt (Nat.lt_of_lt_of_le old new)
    refine ⟨?_, ?_, Node.essence_eq_of_core_eq (core id)⟩
    · rw [children_attach inside, detach_of_parent?_eq_none ready.free, if_neg notParent,
        List.append_nil]
    · rw [parent?_attach ready.inside, if_neg notChild]

/-- A new fragment can be dissolved in a new node. -/
theorem append_fragment (ext : Extends none before document) (sound : document.Sound)
    (beforeSound : before.Sound) {parent fragment : NodeId} (new : before.size ≤ parent)
    (inside : parent < document.size) (newFragment : before.size ≤ fragment)
    (isFragment : (document.node fragment).kind = .fragment) :
    Extends none before (document.append parent fragment) := by
  have core := core_append document parent fragment
  apply ext.step
  · simp
  · intro id _
    exact Node.traits_eq_of_core_eq (core id)
  · intro id _
    rw [Node.kind_eq_of_core_eq (core id)]
  · intro id old isUntouched
    have notParent : id ≠ parent := Nat.ne_of_lt (Nat.lt_of_lt_of_le old new)
    have notFragment : id ≠ fragment := Nat.ne_of_lt (Nat.lt_of_lt_of_le old newFragment)
    have notPart : id ∉ document.children fragment := by
      intro member
      have linked := (sound.linked fragment id).mpr member
      rw [ext.parents id old isUntouched] at linked
      have above := lt_size_of_mem_children ((beforeSound.linked fragment id).mp linked)
      exact absurd above (Nat.not_lt.mpr newFragment)
    refine ⟨?_, ?_, Node.essence_eq_of_core_eq (core id)⟩
    · rw [sound.consistent.children_append_fragment inside isFragment, if_neg notFragment,
        if_neg notParent, List.append_nil]
    · rw [sound.consistent.parent?_append_fragment isFragment, if_neg notPart]

/-- Text can be appended to a node that is worked on. -/
theorem appendText (ext : Extends own before document) (sound : document.Sound)
    (beforeSound : before.Sound) {parent : NodeId} (mine : before.Mine own parent)
    (inside : parent < document.size) (content : String) :
    Extends own before (document.appendText parent content) := by
  rcases document.appendText_cases parent content with
    ⟨last, start, isLast, isText, equal⟩ | ⟨_, equal⟩
  · rw [equal]
    have linked := (sound.linked parent last).mpr (List.mem_of_getLast? isLast)
    -- A child of a node that is worked on may change.
    have touched : ∀ id, id < before.size → before.Untouched own id → last ≠ id := by
      intro id old isUntouched isId
      subst isId
      rw [ext.parents last old isUntouched] at linked
      rcases mine with isOwn | isNew
      · exact (isUntouched parent isOwn).2 linked
      · have above := lt_size_of_mem_children ((beforeSound.linked parent last).mp linked)
        exact absurd above (Nat.not_lt.mpr isNew)
    apply ext.step
    · simp
    · intro id _
      apply traits_modify
      intro node
      rfl
    · intro id _
      rw [node_modify]
      split
      · next same =>
          obtain ⟨rfl, _⟩ := same
          simp [isText]
      · rfl
    · intro id old isUntouched
      have same : (document.modify last fun node =>
          { node with kind := .text (start ++ content) }).node id = document.node id :=
        node_modify_of_ne _ (touched id old isUntouched)
      exact ⟨congrArg Node.children same, congrArg Node.parent same,
        congrArg Node.essence same⟩
  · rw [equal]
    apply (ext.create (textNode content)).attach mine
    · rw [size_create]
      exact Nat.lt_succ_of_lt inside
    · exact ext.size_le
    · exact ready_create rfl rfl (by simp [textNode])

/-- The node that is worked on can be regrouped. -/
theorem of_regrouped {id : NodeId} (ext : Extends (some id) before document)
    {result : Document} {parts : List Part} (sound : document.Sound)
    (regrouped : Regrouped document id result parts) : Extends (some id) before result := by
  have inside : ∀ {other}, other < before.size → other < document.size :=
    fun old => Nat.lt_of_lt_of_le old ext.size_le
  apply ext.step
  · exact regrouped.size_le
  · intro other old
    exact Node.traits_eq_of_core_eq (regrouped.core other (inside old))
  · intro other old
    rw [Node.kind_eq_of_core_eq (regrouped.core other (inside old))]
  · intro other old isUntouched
    obtain ⟨notId, notLinked⟩ := isUntouched id rfl
    have notChild : other ∉ document.children id := by
      intro member
      have linked := (sound.linked id other).mpr member
      rw [ext.parents other old isUntouched] at linked
      exact notLinked linked
    have notParagraph : ∀ content, .paragraph other content ∉ parts := by
      intro content found
      exact notChild (regrouped.mem_children_of_part found (inside old))
    exact ⟨regrouped.children other notId notParagraph,
      regrouped.parent other (inside old) notChild,
      Node.essence_eq_of_core_eq (regrouped.core other (inside old))⟩

end Extends

end TexTree.Document
