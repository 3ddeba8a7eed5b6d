import Mathlib.Data.List.Nodup
import TexTree.Document.Paragraph
import TexTree.Proofs.Document.Children

/-!
# Consistent documents

Every link between two nodes is kept at both of its ends: the parent lists the child,
and the child names the parent.  A document is consistent if the two ends always agree,
no node is listed twice, and fragments are not linked from above at all.

Every operation on documents keeps this, wherever nodes are moved.  In particular a
node may be moved below itself: that the links form a forest is a different matter,
which the soundness of documents adds.
-/

namespace TexTree.Document

/-- The two ends of all links agree. -/
structure Consistent (document : Document) : Prop where
  /-- A node is listed by its parent and by no other node. -/
  linked : ∀ id child, document.parent? child = some id ↔ child ∈ document.children id
  /-- A node is listed once. -/
  nodup : ∀ id, (document.children id).Nodup
  /-- Fragments are not listed. -/
  whole : ∀ id child, child ∈ document.children id →
    (document.node child).kind ≠ .fragment

/-- The nodes that are moved when a node is appended: of a fragment the children. -/
def parts (document : Document) (id : NodeId) : List NodeId :=
  if (document.node id).kind = .fragment then document.children id else [id]

theorem parts_of_fragment {document : Document} {id : NodeId}
    (isFragment : (document.node id).kind = .fragment) :
    document.parts id = document.children id := if_pos isFragment

theorem parts_of_not_fragment {document : Document} {id : NodeId}
    (whole : (document.node id).kind ≠ .fragment) : document.parts id = [id] := if_neg whole

/-- A fragment is in the array. -/
theorem lt_size_of_fragment {document : Document} {id : NodeId}
    (isFragment : (document.node id).kind = .fragment) : id < document.size := by
  by_contra outside
  rw [node_of_size_le (Nat.le_of_not_lt outside)] at isFragment
  cases isFragment

/-- Any property of documents that the new children keep one by one holds in the end. -/
theorem setChildren_induction {document : Document} {holds : Document → Prop}
    {parent : NodeId} {children : List NodeId} (start : holds (document.release parent))
    (each : ∀ child ∈ children, ∀ middle : Document, middle.size = document.size →
      holds middle → holds (middle.append parent child)) :
    holds (document.setChildren parent children) := by
  have run : ∀ rest : List NodeId, (∀ child ∈ rest, child ∈ children) →
      ∀ middle : Document, middle.size = document.size → holds middle →
        holds (rest.foldl (fun document child => document.append parent child) middle) := by
    intro rest
    induction rest with
    | nil => exact fun _ _ _ isSo => isSo
    | cons child rest ih =>
        intro members middle sameSize isSo
        apply ih (fun other member => members other (List.mem_cons_of_mem child member))
        · rw [size_append, sameSize]
        · exact each child (members child List.mem_cons_self) middle sameSize isSo
  exact run children (fun _ member => member) _ (size_release document parent) start

namespace Consistent

variable {document : Document}

theorem lt_size (consistent : document.Consistent) {id child : NodeId}
    (member : child ∈ document.children id) : child < document.size :=
  lt_size_of_parent? ((consistent.linked id child).mpr member)

/-- A node without a parent is not listed. -/
theorem not_mem_children (consistent : document.Consistent) {child : NodeId}
    (free : document.parent? child = none) (id : NodeId) : child ∉ document.children id := by
  intro member
  rw [(consistent.linked id child).mpr member] at free
  cases free

/-- The children of a node are children of no other node. -/
theorem not_mem_of_mem (consistent : document.Consistent) {id other child : NodeId}
    (member : child ∈ document.children id) (different : other ≠ id) :
    child ∉ document.children other := by
  intro second
  have first := (consistent.linked id child).mpr member
  rw [(consistent.linked other child).mpr second, Option.some.injEq] at first
  exact different first

/-- Fragments have no parent. -/
theorem parent?_of_fragment (consistent : document.Consistent) {id : NodeId}
    (isFragment : (document.node id).kind = .fragment) : document.parent? id = none := by
  cases linked : document.parent? id with
  | none => rfl
  | some above => exact absurd isFragment (consistent.whole above id
      ((consistent.linked above id).mp linked))

theorem count_children (consistent : document.Consistent) (id child : NodeId) :
    (document.children id).count child ≤ 1 :=
  List.nodup_iff_count_le_one.mp (consistent.nodup id) child

theorem empty : Document.empty.Consistent := by
  have childless : ∀ id, Document.empty.children id = [] := by
    intro id
    cases id with
    | zero => rfl
    | succ id => exact children_of_size_le (by simp [Document.empty, size])
  have parentless : ∀ id, Document.empty.parent? id = none := by
    intro id
    cases id with
    | zero => rfl
    | succ id => exact parent?_of_size_le (by simp [Document.empty, size])
  constructor
  · intro id child
    simp [childless, parentless]
  · intro id
    simp [childless]
  · intro id child member
    simp [childless] at member

/-! ## Changes that leave the links alone -/

/-- A document with the same links is consistent, unless a child became a fragment. -/
theorem of_same_links (consistent : document.Consistent) {other : Document}
    (sameParents : ∀ id, other.parent? id = document.parent? id)
    (sameChildren : ∀ id, other.children id = document.children id)
    (whole : ∀ id, id < document.size → (document.node id).kind ≠ .fragment →
      (other.node id).kind ≠ .fragment) : other.Consistent := by
  constructor
  · intro id child
    rw [sameParents, sameChildren]
    exact consistent.linked id child
  · intro id
    rw [sameChildren]
    exact consistent.nodup id
  · intro id child member
    rw [sameChildren] at member
    exact whole child (consistent.lt_size member) (consistent.whole id child member)

theorem create (consistent : document.Consistent) {node : Node} (childless : node.children = [])
    (parentless : node.parent = none) : (document.create node).2.Consistent := by
  apply consistent.of_same_links
  · exact parent?_create parentless
  · exact children_create childless
  · intro id inside whole
    rw [node_create_of_lt node inside]
    exact whole

/-! ## Moving nodes -/

/-- Moving nodes to a new parent keeps a document consistent. -/
theorem of_moved (consistent : document.Consistent) {other : Document} {parent : NodeId}
    {moved : List NodeId} (nodup : moved.Nodup)
    (entire : ∀ child ∈ moved, (document.node child).kind ≠ .fragment)
    (parents : ∀ id, other.parent? id =
      if id ∈ moved then some parent else document.parent? id)
    (children : ∀ id, other.children id =
      (document.children id).filter (· ∉ moved) ++ if id = parent then moved else [])
    (kinds : ∀ id, (other.node id).kind = (document.node id).kind) : other.Consistent := by
  have members : ∀ id child, child ∈ other.children id ↔
      child ∈ document.children id ∧ child ∉ moved ∨ id = parent ∧ child ∈ moved := by
    intro id child
    rw [children]
    split <;> simp_all
  constructor
  · intro id child
    rw [parents, members]
    by_cases isMoved : child ∈ moved
    · simp [isMoved, eq_comm]
    · simp [isMoved, consistent.linked]
  · intro id
    rw [children]
    have kept : ((document.children id).filter (· ∉ moved)).Nodup :=
      (consistent.nodup id).filter _
    split
    · rw [List.nodup_append]
      refine ⟨kept, nodup, ?_⟩
      intro left leftMember right rightMember equal
      subst equal
      simp_all
    · simpa using kept
  · intro id child member
    rw [kinds]
    rcases (members id child).mp member with ⟨old, _⟩ | ⟨_, new⟩
    · exact consistent.whole id child old
    · exact entire child new

/-- Only the parent of a node loses it. -/
theorem children_detach (consistent : document.Consistent) (child id : NodeId) :
    (document.detach child).children id =
      (document.children id).filter (· ∉ [child]) := by
  simp only [List.mem_singleton]
  by_cases listed : child ∈ document.children id
  · rw [Document.children_detach, if_pos ((consistent.linked id child).mpr listed)]
    apply List.filter_congr
    intro other _
    rw [Bool.eq_iff_iff]
    simp
  · rw [children_detach_of_not_mem listed, eq_comm, List.filter_eq_self]
    intro other member
    rw [decide_eq_true_iff]
    intro equal
    exact listed (equal ▸ member)

/-- The children of a new parent, and of all other nodes, when a node has been moved. -/
theorem children_attach (consistent : document.Consistent) {parent : NodeId}
    (inside : parent < document.size) (child id : NodeId) :
    (document.attach parent child).children id =
      (document.children id).filter (· ∉ [child]) ++ if id = parent then [child] else [] := by
  rw [Document.children_attach inside, consistent.children_detach]

/-- Dissolving a fragment moves its children. -/
theorem children_append_fragment (consistent : document.Consistent) {parent fragment : NodeId}
    (inside : parent < document.size)
    (isFragment : (document.node fragment).kind = .fragment) (id : NodeId) :
    (document.append parent fragment).children id =
      (if id = fragment then [] else document.children id) ++
        if id = parent then document.children fragment else [] := by
  have emptied : ∀ id, (document.modify fragment fun node =>
      { node with children := [] }).children id =
        if id = fragment then [] else document.children id := by
    intro id
    simp only [children, node_modify]
    by_cases equal : fragment = id
    · subst equal
      by_cases known : fragment < document.size
      · simp [known]
      · simp [known, node_of_size_le (Nat.le_of_not_lt known)]
        rfl
    · simp [equal, Ne.symm equal]
  rw [append_of_fragment isFragment,
    children_attachAll (by simpa using inside) (consistent.nodup fragment), emptied]
  intro part member id
  rw [emptied]
  split
  · exact List.not_mem_nil
  · next different => exact consistent.not_mem_of_mem member different

theorem parent?_append_fragment (consistent : document.Consistent) {parent fragment : NodeId}
    (isFragment : (document.node fragment).kind = .fragment) (id : NodeId) :
    (document.append parent fragment).parent? id =
      if id ∈ document.children fragment then some parent else document.parent? id := by
  rw [append_of_fragment isFragment, parent?_attachAll, parent?_modify]
  · intro node
    rfl
  · intro part member
    simpa using consistent.lt_size member

/-! ## Appending -/

theorem nodup_parts (consistent : document.Consistent) (id : NodeId) :
    (document.parts id).Nodup := by
  unfold parts
  split
  · exact consistent.nodup id
  · exact List.nodup_singleton id

theorem whole_of_mem_parts (consistent : document.Consistent) {id part : NodeId}
    (member : part ∈ document.parts id) : (document.node part).kind ≠ .fragment := by
  unfold parts at member
  split at member
  · exact consistent.whole id part member
  · next whole => rwa [List.mem_singleton.mp member]

/-- What is appended is taken from where it was, and comes last in its new parent. -/
theorem children_append (consistent : document.Consistent) {parent : NodeId}
    (inside : parent < document.size) (child id : NodeId) :
    (document.append parent child).children id =
      (document.children id).filter (· ∉ document.parts child) ++
        if id = parent then document.parts child else [] := by
  unfold parts
  split
  · next isFragment =>
      rw [consistent.children_append_fragment inside isFragment]
      congr 1
      split
      · next equal =>
          subst equal
          simp
      · next different =>
          rw [eq_comm, List.filter_eq_self]
          intro part member
          rw [decide_eq_true_iff]
          intro listed
          exact consistent.not_mem_of_mem listed different member
  · next whole => rw [append_of_not_fragment whole, consistent.children_attach inside]

theorem parent?_append (consistent : document.Consistent) {child : NodeId}
    (inside : child < document.size) (parent id : NodeId) :
    (document.append parent child).parent? id =
      if id ∈ document.parts child then some parent else document.parent? id := by
  unfold parts
  split
  · next isFragment => exact consistent.parent?_append_fragment isFragment id
  · next whole => simp [append_of_not_fragment whole, parent?_attach inside]

/-- Appending a node, or the children of a fragment, keeps a document consistent. -/
theorem append (consistent : document.Consistent) {parent child : NodeId}
    (parentInside : parent < document.size) (childInside : child < document.size) :
    (document.append parent child).Consistent := by
  apply consistent.of_moved (consistent.nodup_parts child)
  · intro part
    exact consistent.whole_of_mem_parts
  · exact consistent.parent?_append childInside parent
  · exact consistent.children_append parentInside child
  · intro id
    exact Node.kind_eq_of_core_eq (core_append document parent child id)

/-- Extending a text at the end of a node or adding one keeps a document consistent. -/
theorem appendText (consistent : document.Consistent) {parent : NodeId}
    (inside : parent < document.size) (content : String) :
    (document.appendText parent content).Consistent := by
  rcases document.appendText_cases parent content with
    ⟨last, start, _, isText, equal⟩ | ⟨_, equal⟩
  · rw [equal]
    apply consistent.of_same_links
    · intro id
      apply parent?_modify
      intro node
      rfl
    · intro id
      apply children_modify
      intro node
      rfl
    · intro id _ whole
      rw [node_modify]
      split
      · simp
      · exact whole
  · have created : (document.create (textNode content)).2.Consistent := consistent.create rfl rfl
    have isWhole : ((document.create (textNode content)).2.node document.size).kind ≠
        .fragment := by simp [textNode]
    rw [equal, ← append_of_not_fragment isWhole]
    refine created.append ?_ (by simp)
    rw [size_create]
    exact Nat.lt_succ_of_lt inside

/-! ## Replacing the children of a node -/

/-- Releasing the children of a node keeps a document consistent. -/
theorem release (consistent : document.Consistent) (id : NodeId) :
    (document.release id).Consistent := by
  have subset : ∀ {above below}, below ∈ (document.release id).children above →
      above ≠ id ∧ below ∈ document.children above := by
    intro above below member
    rw [children_release] at member
    split at member
    · cases member
    · next different => exact ⟨different, member⟩
  constructor
  · intro above below
    rw [parent?_release, children_release]
    by_cases equal : above = id
    · subst equal
      by_cases member : below ∈ document.children above
      · simp [member]
      · simp [member, consistent.linked]
    · by_cases member : below ∈ document.children id
      · rw [if_pos member, if_neg equal]
        constructor
        · intro impossible
          cases impossible
        · intro second
          exact absurd second (consistent.not_mem_of_mem member equal)
      · rw [if_neg member, if_neg equal]
        exact consistent.linked above below
  · intro above
    rw [children_release]
    split
    · exact List.nodup_nil
    · exact consistent.nodup above
  · intro above below member
    rw [Node.kind_eq_of_core_eq (core_release ..)]
    exact consistent.whole above below (subset member).2

/-- Replacing the children of a node keeps a document consistent. -/
theorem setChildren (consistent : document.Consistent) {parent : NodeId}
    {children : List NodeId} (parentInside : parent < document.size)
    (childrenInside : ∀ child ∈ children, child < document.size) :
    (document.setChildren parent children).Consistent := by
  apply setChildren_induction (consistent.release parent)
  intro child member middle sameSize middleConsistent
  rw [← sameSize] at parentInside
  exact middleConsistent.append parentInside (sameSize ▸ childrenInside child member)

/-! ## Regrouping -/

/-- A state of regrouping whose document is consistent and has all nodes that are still
needed. -/
structure Regroups (document : Document) (state : Regrouping) : Prop where
  consistent : state.document.Consistent
  size_le : document.size ≤ state.document.size
  current : state.current < state.document.size
  reversed : ∀ child ∈ state.reversed, child < state.document.size

theorem regroups_openParagraph {start : Document} (consistent : start.Consistent)
    (size_le : document.size ≤ start.size) {reversed : List NodeId}
    (inside : ∀ child ∈ reversed, child < start.size) :
    Regroups document (Regrouping.openParagraph start reversed) := by
  have size : (Regrouping.openParagraph start reversed).document.size = start.size + 1 :=
    size_create start _
  refine ⟨consistent.create rfl rfl, by omega, ?_, ?_⟩
  · rw [size]
    exact Nat.lt_succ_self start.size
  · intro child member
    rw [size]
    rcases List.mem_cons.mp member with rfl | older
    · exact Nat.lt_succ_self start.size
    · exact Nat.lt_succ_of_lt (inside child older)

theorem Regroups.add {state : Regrouping} (regroups : Regroups document state) {child : NodeId}
    (inside : child < document.size) : Regroups document (state.add child) := by
  have childInside := Nat.lt_of_lt_of_le inside regroups.size_le
  have withChild : ∀ other ∈ child :: state.reversed, other < state.document.size := by
    intro other member
    rcases List.mem_cons.mp member with rfl | older
    · exact childInside
    · exact regroups.reversed other older
  unfold Regrouping.add
  dsimp only
  split
  · exact ⟨regroups.consistent, regroups.size_le, childInside, withChild⟩
  · split
    · exact regroups_openParagraph regroups.consistent regroups.size_le withChild
    · refine ⟨regroups.consistent.append regroups.current childInside, ?_, ?_, ?_⟩
      · simpa using regroups.size_le
      · simpa using regroups.current
      · simpa using regroups.reversed

theorem Regroups.foldl {state : Regrouping} (regroups : Regroups document state)
    {children : List NodeId} (inside : ∀ child ∈ children, child < document.size) :
    Regroups document (children.foldl Regrouping.add state) := by
  induction children generalizing state with
  | nil => exact regroups
  | cons child rest ih =>
      exact ih (regroups.add (inside child List.mem_cons_self))
        fun other member => inside other (List.mem_cons_of_mem child member)

/-- Regrouping the children of a node keeps a document consistent. -/
theorem paragraphs (consistent : document.Consistent) {id : NodeId}
    (inside : id < document.size) (force : Bool) : (document.paragraphs id force).Consistent := by
  simp only [Document.paragraphs]
  split
  · have started := regroups_openParagraph consistent (Nat.le_refl document.size)
      (List.forall_mem_nil (· < document.size))
    have children : ∀ child ∈ document.children id, child < document.size :=
      fun child member => consistent.lt_size member
    have done := started.foldl children
    apply done.consistent.setChildren (Nat.lt_of_lt_of_le inside done.size_le)
    intro child member
    exact done.reversed child (List.mem_reverse.mp (List.mem_filter.mp member).1)
  · exact consistent

end Consistent

end TexTree.Document
