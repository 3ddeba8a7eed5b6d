import TexTree.Engine.Digestion
import TexTree.Proofs.Document.Unfolding

/-!
# Orderly documents

Which nodes stand below which is decided when a node looks at the node behind it:
it takes it up, or it leaves it to the nodes around (`Node.reaction`).  A document
is orderly if all its links could have come about in this way: the parent would
take the child, or the child closes nothing and its level suits the parent.  For
a child in a paragraph, the node that was regrouped may stand for its parent.

Every operation on documents keeps them orderly, as far as it only appends what
the parent admits.
-/

namespace TexTree

namespace Node

/-- Whether a node only closes a group or an environment. -/
def isCloser (node : Node) : Bool := node.mode == .closing || node.closesGroup

/-- A node appends another one that follows it. -/
def Takes (node next : Node) : Prop :=
  node.reaction next = .takeUp ∨ node.reaction next = .append

/-- The level of a node allows it to stand below another one. -/
def Admits (node next : Node) : Prop :=
  match node.digest with
  | .nothing => True
  | .environment =>
      node.level = Level.environment →
        Level.environment ≤ next.level ∨ next.level = Level.par
  | .sectioning => node.level < next.level
  | .group | .declaration => Level.endSections ≤ next.level
  | .item => Level.par ≤ next.level

/-- The level of a node suits its rule of digestion. -/
structure Proper (node : Node) : Prop where
  sectioning : node.digest = .sectioning → node.level < Level.endSections
  paragraph : node.level = Level.par → node.digest = .nothing ∨ node.digest = .environment
  fragment : node.kind = .fragment → node.digest = .nothing ∧ node.level ≠ Level.par
  element : node.level = Level.par → node.kind = .element

/-- A node can stand below another one: the other one would take it, or it closes
nothing and its level allows it. -/
def Suits (node next : Node) : Prop :=
  node.Takes next ∨ next.isCloser = false ∧ node.Admits next

theorem Takes.admits {node next : Node} (takes : node.Takes next) : node.Admits next := by
  unfold Takes reaction at takes
  unfold Admits
  cases digest : node.digest with
  | nothing => trivial
  | environment =>
      intro level
      simp only [digest, level] at takes
      by_cases isPar : next.level = Level.par
      · exact .inr isPar
      · left
        by_contra lower
        simp [isPar, Int.not_le.mp lower] at takes
  | sectioning =>
      by_contra lower
      simp [digest, Int.not_lt.mp lower] at takes
  | group =>
      by_contra lower
      simp [digest, Int.not_le.mp lower] at takes
  | declaration =>
      by_contra lower
      simp [digest, Int.not_le.mp lower] at takes
  | item =>
      by_contra lower
      simp [digest, Int.not_le.mp lower] at takes

theorem Suits.admits {node next : Node} (suits : node.Suits next) : node.Admits next := by
  rcases suits with takes | ⟨_, admits⟩
  · exact takes.admits
  · exact admits

/-- A node without a rule of digestion takes nothing. -/
theorem not_takes_of_nothing {node : Node} (digest : node.digest = .nothing) (next : Node) :
    ¬node.Takes next := by
  simp [Takes, reaction, digest]

/-- What a paragraph break may hold is not restricted by its level. -/
theorem Proper.admits_of_paragraph {node : Node} (proper : node.Proper)
    (level : node.level = Level.par) (next : Node) : node.Admits next := by
  unfold Admits
  rcases proper.paragraph level with digest | digest
  · simp [digest]
  · simp [digest, level, Level.par, Level.environment]

/-- Paragraphs and everything below them can stand anywhere. -/
theorem Proper.admits_of_deep {node next : Node} (proper : node.Proper)
    (deep : Level.environment ≤ next.level ∨ next.level = Level.par) : node.Admits next := by
  have lower : Level.par ≤ next.level := by
    rcases deep with below | equal
    · exact Int.le_trans (by decide : Level.par ≤ Level.environment) below
    · exact Int.le_of_eq equal.symm
  have between : Level.endSections ≤ Level.par := by decide
  unfold Admits
  cases digest : node.digest with
  | nothing => trivial
  | environment => exact fun _ => deep
  | sectioning =>
      exact Int.lt_of_lt_of_le (proper.sectioning digest) (Int.le_trans between lower)
  | group => exact Int.le_trans between lower
  | declaration => exact Int.le_trans between lower
  | item => exact lower

section Congruence

variable {node node' next next' : Node}

/-- What a node does with a node that follows it depends on the traits of both. -/
theorem reaction_congr (left : node'.traits = node.traits) (right : next'.traits = next.traits) :
    node'.reaction next' = node.reaction next := by
  have same : node'.traits.reaction next'.traits = node.traits.reaction next.traits := by
    rw [left, right]
  exact same

theorem takes_congr (left : node'.traits = node.traits) (right : next'.traits = next.traits) :
    node'.Takes next' ↔ node.Takes next := by
  rw [Takes, Takes, reaction_congr left right]

theorem suits_congr (left : node'.traits = node.traits) (right : next'.traits = next.traits) :
    node'.Suits next' ↔ node.Suits next := by
  have sameCloser : next'.traits.isCloser = next.traits.isCloser := by rw [right]
  have sameAdmits : node'.traits.Admits next'.traits = node.traits.Admits next.traits := by
    rw [left, right]
  have closer : next'.isCloser = next.isCloser := sameCloser
  have admits : node'.Admits next' = node.Admits next := sameAdmits
  rw [Suits, Suits, takes_congr left right, closer, admits]

theorem Proper.congr (proper : node.Proper) (left : node'.traits = node.traits)
    (fragments : node'.kind = .fragment → node.kind = .fragment)
    (elements : node.kind = .element → node'.kind = .element) : node'.Proper := by
  have digest : node'.digest = node.digest := digest_eq_of_traits_eq left
  have level : node'.level = node.level := level_eq_of_traits_eq left
  constructor
  · rw [digest, level]
    exact proper.sectioning
  · rw [digest, level]
    exact proper.paragraph
  · intro fragment
    rw [digest, level]
    exact proper.fragment (fragments fragment)
  · rw [level]
    intro isBreak
    exact elements (proper.element isBreak)

end Congruence

end Node

namespace Document

/-- One node can stand below another one. -/
def Suits (document : Document) (parent child : NodeId) : Prop :=
  (document.node parent).Suits (document.node child)

/-- A child has its place below its parent: it suits the parent, or the parent is a
paragraph and the node around it would take the child. -/
def Held (document : Document) (parent child : NodeId) : Prop :=
  document.Suits parent child ∨
    (document.node parent).level = Level.par ∧
      ∀ above, document.parent? parent = some above →
        (document.node above).Takes (document.node child)

/-- All links of the document are as digestion makes them. -/
structure Orderly (document : Document) : Prop where
  sound : document.Sound
  proper : ∀ id, (document.node id).Proper
  held : ∀ parent child, child ∈ document.children parent → document.Held parent child

/-- A node that can be appended somewhere: it has no parent yet, and all its children
suit it. -/
structure Ready (document : Document) (id : NodeId) : Prop where
  inside : id < document.size
  free : document.parent? id = none
  whole : (document.node id).kind ≠ .fragment
  suits : ∀ child ∈ document.children id, document.Suits id child

/-- A new node can be appended. -/
theorem ready_create {document : Document} {node : Node} (childless : node.children = [])
    (parentless : node.parent = none) (whole : node.kind ≠ .fragment) :
    (document.create node).2.Ready document.size := by
  constructor
  · simp
  · rw [parent?_create parentless, parent?_of_size_le (Nat.le_refl _)]
  · simpa using whole
  · rw [children_create childless, children_of_size_le (Nat.le_refl _)]
    simp

namespace Orderly

variable {document : Document}

/-- A document with the same links and traits is orderly, unless fragments come and
go. -/
theorem of_same_links (orderly : document.Orderly) {other : Document}
    (parents : ∀ id, other.parent? id = document.parent? id)
    (children : ∀ id, other.children id = document.children id)
    (traits : ∀ id, (other.node id).traits = (document.node id).traits)
    (kinds : ∀ id, (other.node id).kind = .fragment ↔ (document.node id).kind = .fragment)
    (elements : ∀ id, (document.node id).kind = .element → (other.node id).kind = .element) :
    other.Orderly := by
  constructor
  · apply orderly.sound.of_same_links parents children
    intro id whole fragment
    exact whole ((kinds id).mp fragment)
  · intro id
    exact (orderly.proper id).congr (traits id) (kinds id).mp (elements id)
  · intro parent child member
    rw [children] at member
    rcases orderly.held parent child member with suits | ⟨level, around⟩
    · exact .inl ((Node.suits_congr (traits parent) (traits child)).mpr suits)
    · refine .inr ⟨(Node.level_eq_of_traits_eq (traits parent)).trans level, ?_⟩
      intro above linked
      rw [parents] at linked
      exact (Node.takes_congr (traits above) (traits child)).mpr (around above linked)

/-- Changing a node keeps a document orderly if the change touches neither links nor
traits. -/
theorem modify (orderly : document.Orderly) (id : NodeId) {change : Node → Node}
    (parent : ∀ node, (change node).parent = node.parent)
    (children : ∀ node, (change node).children = node.children)
    (traits : ∀ node, (change node).traits = node.traits)
    (kind : (change (document.node id)).kind = .fragment ↔
      (document.node id).kind = .fragment)
    (element : (document.node id).kind = .element →
      (change (document.node id)).kind = .element) :
    (document.modify id change).Orderly := by
  apply orderly.of_same_links
  · exact parent?_modify change parent document id
  · exact children_modify change children document id
  · exact traits_modify change traits document id
  · intro other
    rw [node_modify]
    split
    · next same =>
        obtain ⟨rfl, _⟩ := same
        exact kind
    · rfl
  · intro other
    rw [node_modify]
    split
    · next same =>
        obtain ⟨rfl, _⟩ := same
        exact element
    · exact fun isElement => isElement

theorem create (orderly : document.Orderly) {node : Node} (childless : node.children = [])
    (parentless : node.parent = none) (proper : node.Proper) :
    (document.create node).2.Orderly := by
  have same : ∀ {parent child}, child ∈ document.children parent →
      (document.create node).2.node parent = document.node parent ∧
        (document.create node).2.node child = document.node child := by
    intro parent child member
    exact ⟨node_create_of_lt node (lt_size_of_mem_children member),
      node_create_of_lt node (orderly.sound.lt_size member)⟩
  constructor
  · exact orderly.sound.create childless parentless
  · intro id
    rw [node_create]
    split
    · exact proper
    · exact orderly.proper id
  · intro parent child member
    rw [children_create childless] at member
    obtain ⟨sameParent, sameChild⟩ := same member
    unfold Held Suits
    rw [sameParent, sameChild]
    rcases orderly.held parent child member with suits | ⟨level, around⟩
    · exact .inl suits
    · refine .inr ⟨level, ?_⟩
      intro above linked
      rw [parent?_create parentless] at linked
      have listed := (orderly.sound.linked above parent).mp linked
      rw [(same listed).1]
      exact around above linked

/-- A node that has no parent yet may change its traits if its children still suit
it. -/
theorem redefine (orderly : document.Orderly) {id : NodeId} (inside : id < document.size)
    (free : document.parent? id = none) {change : Node → Node}
    (parent : ∀ node, (change node).parent = node.parent)
    (children : ∀ node, (change node).children = node.children)
    (whole : (change (document.node id)).kind = .fragment → (document.node id).kind = .fragment)
    (proper : (change (document.node id)).Proper)
    (suits : ∀ child ∈ document.children id,
      (change (document.node id)).Suits (document.node child))
    (below : ∀ child ∈ document.children id, ∀ inner ∈ document.children child,
      document.Suits child inner) :
    (document.modify id change).Orderly := by
  have notListed := orderly.sound.not_mem_children free
  constructor
  · apply orderly.sound.of_same_links
    · exact parent?_modify change parent document id
    · exact children_modify change children document id
    · intro other isWhole
      rw [node_modify]
      split
      · next same =>
          obtain ⟨rfl, _⟩ := same
          exact fun fragment => isWhole (whole fragment)
      · exact isWhole
  · intro other
    rw [node_modify]
    split
    · next same =>
        obtain ⟨rfl, _⟩ := same
        exact proper
    · exact orderly.proper other
  · intro above child member
    rw [children_modify change children] at member
    have childSame : (document.modify id change).node child = document.node child := by
      apply node_modify_of_ne
      intro equal
      exact notListed above (equal ▸ member)
    unfold Held Suits
    rw [childSame, parent?_modify change parent]
    by_cases equal : id = above
    · subst equal
      left
      rw [node_modify_self change inside]
      exact suits child member
    · rw [node_modify_of_ne change equal]
      by_cases listed : above ∈ document.children id
      · exact .inl (below above listed child member)
      · rcases orderly.held above child member with isSuited | ⟨level, around⟩
        · exact .inl isSuited
        · refine .inr ⟨level, ?_⟩
          intro top linked
          rw [node_modify_of_ne]
          · exact around top linked
          · intro isTop
            subst isTop
            exact listed ((orderly.sound.linked id above).mp linked)

/-- A node that is ready can be appended to a node that it suits. -/
theorem attach (orderly : document.Orderly) {parent child : NodeId}
    (inside : parent < document.size) (free : document.parent? parent = none)
    (ready : document.Ready child) (different : child ≠ parent)
    (suits : document.Suits parent child) : (document.attach parent child).Orderly := by
  have traits : ∀ id, ((document.attach parent child).node id).traits =
      (document.node id).traits :=
    fun id => Node.traits_eq_of_core_eq (core_attach document parent child id)
  have children : ∀ id, (document.attach parent child).children id =
      document.children id ++ if id = parent then [child] else [] := by
    intro id
    rw [children_attach inside, detach_of_parent?_eq_none ready.free]
  constructor
  · exact orderly.sound.attach inside ready.inside ready.whole
      (orderly.sound.not_reaches free different)
  · intro id
    apply (orderly.proper id).congr (traits id)
    · rw [Node.kind_eq_of_core_eq (core_attach document parent child id)]
      exact fun fragment => fragment
    · rw [Node.kind_eq_of_core_eq (core_attach document parent child id)]
      exact fun element => element
  · intro above below member
    unfold Held Suits
    rw [Node.suits_congr (traits above) (traits below),
      Node.level_eq_of_traits_eq (traits above)]
    rw [children, List.mem_append] at member
    rcases member with old | new
    · by_cases isChild : above = child
      · subst isChild
        exact .inl (ready.suits below old)
      · rcases orderly.held above below old with isSuited | ⟨level, around⟩
        · exact .inl isSuited
        · refine .inr ⟨level, ?_⟩
          intro top linked
          rw [parent?_attach ready.inside, if_neg isChild] at linked
          rw [Node.takes_congr (traits top) (traits below)]
          exact around top linked
    · split at new
      · next isParent =>
          subst isParent
          rw [List.mem_singleton.mp new]
          exact .inl suits
      · cases new

/-- The children of a fragment, and what stands in paragraphs among them, close
nothing: a fragment takes nothing by itself. -/
theorem not_isCloser_of_fragment (orderly : document.Orderly) {fragment child : NodeId}
    (isFragment : (document.node fragment).kind = .fragment)
    (member : child ∈ document.children fragment) :
    (document.node child).isCloser = false ∧
      ∀ inner ∈ document.children child, document.Suits child inner := by
  obtain ⟨digest, level⟩ := (orderly.proper fragment).fragment isFragment
  have takesNothing := Node.not_takes_of_nothing digest
  constructor
  · rcases orderly.held fragment child member with (takes | plain) | paragraph
    · exact absurd takes (takesNothing _)
    · exact plain.1
    · exact absurd paragraph.1 level
  · intro inner isInner
    rcases orderly.held child inner isInner with suits | ⟨_, around⟩
    · exact suits
    · have linked := (orderly.sound.linked fragment child).mpr member
      exact absurd (around fragment linked) (takesNothing _)

/-- A fragment can be dissolved in a node that admits any content. -/
theorem append_fragment (orderly : document.Orderly) {parent fragment : NodeId}
    (inside : parent < document.size) (free : document.parent? parent = none)
    (isFragment : (document.node fragment).kind = .fragment)
    (admits : ∀ next, (document.node parent).Admits next) :
    (document.append parent fragment).Orderly := by
  have core := core_append document parent fragment
  have traits : ∀ id, ((document.append parent fragment).node id).traits =
      (document.node id).traits := fun id => Node.traits_eq_of_core_eq (core id)
  constructor
  · apply orderly.sound.append_fragment inside isFragment
    intro part member
    apply orderly.sound.not_reaches free
    intro equal
    exact orderly.sound.not_mem_children free fragment (equal ▸ member)
  · intro id
    apply (orderly.proper id).congr (traits id)
    · rw [Node.kind_eq_of_core_eq (core id)]
      exact fun kind => kind
    · rw [Node.kind_eq_of_core_eq (core id)]
      exact fun kind => kind
  · intro above below member
    unfold Held Suits
    rw [Node.suits_congr (traits above) (traits below),
      Node.level_eq_of_traits_eq (traits above)]
    rw [orderly.sound.consistent.children_append_fragment inside isFragment,
      List.mem_append] at member
    rcases member with old | new
    · split at old
      · cases old
      · by_cases moved : above ∈ document.children fragment
        · exact .inl ((orderly.not_isCloser_of_fragment isFragment moved).2 below old)
        · rcases orderly.held above below old with isSuited | ⟨level, around⟩
          · exact .inl isSuited
          · refine .inr ⟨level, ?_⟩
            intro top linked
            rw [orderly.sound.consistent.parent?_append_fragment isFragment, if_neg moved] at linked
            rw [Node.takes_congr (traits top) (traits below)]
            exact around top linked
    · split at new
      · next isParent =>
          subst isParent
          exact .inl (.inr ⟨(orderly.not_isCloser_of_fragment isFragment new).1, admits _⟩)
      · cases new

/-- Text can be appended to any node. -/
theorem appendText (orderly : document.Orderly) {parent : NodeId}
    (inside : parent < document.size) (free : document.parent? parent = none)
    (content : String) : (document.appendText parent content).Orderly := by
  rcases document.appendText_cases parent content with
    ⟨last, start, _, isText, equal⟩ | ⟨_, equal⟩
  · rw [equal]
    apply orderly.modify
    · intro node
      rfl
    · intro node
      rfl
    · intro node
      rfl
    · simp [isText]
    · simp [isText]
  · rw [equal]
    have proper : (textNode content).Proper := by
      constructor <;> simp [textNode, Level.command, Level.par]
    have created : (document.create (textNode content)).2.Orderly :=
      orderly.create rfl rfl proper
    apply created.attach
    · rw [size_create]
      exact Nat.lt_succ_of_lt inside
    · rw [parent?_create rfl]
      exact free
    · exact ready_create rfl rfl (by simp [textNode])
    · exact Nat.ne_of_gt inside
    · refine .inr ⟨?_, (created.proper parent).admits_of_deep ?_⟩
      · simp [textNode, Node.isCloser, Node.closesGroup]
      · simp [textNode, Level.command, Level.environment]

end Orderly

end Document

end TexTree
