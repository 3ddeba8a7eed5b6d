import TexTree.Proofs.Document.Partition

/-!
# The document that has been regrouped

When regrouping has gone through all children of a node, they lie in the parts, and the
parts that are kept become the children of the node.  All links of the document that
results are known from the parts (`Regrouped`), and it is sound if the one before was.
-/

namespace TexTree.Document

/-- Whether a part of a regrouped document is kept: paragraphs that hold only white
space are dropped. -/
def keepsPart (document : Document) (part : NodeId) : Bool :=
  (document.node part).level ≠ Level.par || !document.isBlank part

/-- All links of a document whose node has been regrouped into the given parts. -/
structure Regrouped (document : Document) (id : NodeId) (result : Document)
    (parts : List Part) : Prop where
  sound : result.Sound
  size_le : document.size ≤ result.size
  listed : parts.flatMap (Part.listed document) = document.children id
  distinct : (parts.map Part.id).Nodup
  core : ∀ other, other < document.size →
    (result.node other).core = (document.node other).core
  fresh : ∀ other, document.size ≤ other → other < result.size →
    (result.node other).core = paragraphNode.core
  paragraphs : ∀ par content, .paragraph par content ∈ parts →
    par < result.size ∧ result.children par = content ∧
      (par < document.size → (document.node par).level = Level.par ∧ document.children par = [])
  solids : ∀ child, .solid child ∈ parts → document.isSolid child
  loose : ∀ child ∈ Part.moved parts,
    (document.node child).level ≠ Level.par ∧ ¬document.isSolid child
  children_id : result.children id = (parts.map Part.id).filter result.keepsPart
  children : ∀ other, other ≠ id → (∀ content, .paragraph other content ∉ parts) →
    result.children other = document.children other
  parent : ∀ other, other < document.size → other ∉ document.children id →
    result.parent? other = document.parent? other

namespace Described

variable {document : Document} {id : NodeId} {state : Regrouping} {parts : List Part}

/-- The regrouped node still lies where it did. -/
theorem not_reaches_id (sound : document.Sound) (inside : id < document.size)
    (described : Described document id [] state parts) {part : Part} (member : part ∈ parts) :
    ¬state.document.Reaches part.id id := by
  intro path
  have before : document.Reaches part.id id := by
    apply sound.reaches_of_reaches described.sound _ path
    intro below lower
    apply described.parent
    intro moved
    exact sound.not_reaches_of_mem (described.mem_children_of_moved moved) lower
  by_cases old : part.id < document.size
  · exact sound.not_reaches_of_mem (described.mem_children_of_part member old) before
  · have childless := children_of_size_le (Nat.le_of_not_lt old)
    refine Sound.not_reaches_of_childless childless ?_ before
    intro equal
    exact old (equal ▸ inside)

/-- The parts are no fragments. -/
theorem whole_part (sound : document.Sound) (described : Described document id [] state parts)
    {part : Part} (member : part ∈ parts) :
    (state.document.node part.id).kind ≠ .fragment := by
  by_cases old : part.id < document.size
  · rw [Node.kind_eq_of_core_eq (described.core _ old)]
    exact sound.whole id _ (described.mem_children_of_part member old)
  · cases part with
    | paragraph par content =>
        have bounded := (described.paragraphs par content member).1
        rw [Part.id, Node.kind_eq_of_core_eq (described.fresh par (Nat.le_of_not_lt old) bounded)]
        simp [paragraphNode, element]
    | solid child =>
        have listed : child ∈ document.children id :=
          described.mem_children_of_listed member (by simp [Part.listed])
        exact absurd (sound.lt_size listed) old

/-- The regrouped node is the only one that lists parts. -/
theorem not_mem_children (sound : document.Sound)
    (described : Described document id [] state parts) {part : Part} (member : part ∈ parts)
    {other : NodeId} (different : other ≠ id) : part.id ∉ state.document.children other := by
  intro listed
  have linked := (described.sound.linked other _).mpr listed
  rw [described.parent _ (described.not_mem_moved sound member)] at linked
  have old := lt_size_of_parent? linked
  have isChild := described.mem_children_of_part member old
  rw [(sound.linked id _).mpr isChild, Option.some.injEq] at linked
  exact different linked.symm

section Completing

variable {kept : List NodeId} (standsFor : ∀ child ∈ kept, ∃ part ∈ parts, part.id = child)
include standsFor

theorem kept_lt_size (sound : document.Sound) (described : Described document id [] state parts) :
    ∀ child ∈ kept, child < state.document.size := by
  intro child member
  obtain ⟨part, found, rfl⟩ := standsFor child member
  exact described.part_lt_size sound found

theorem whole_kept (sound : document.Sound) (described : Described document id [] state parts) :
    ∀ child ∈ kept, (state.document.node child).kind ≠ .fragment := by
  intro child member
  obtain ⟨part, found, rfl⟩ := standsFor child member
  exact described.whole_part sound found

/-- The document stays sound when the node is given parts as its children. -/
theorem sound_setChildren (sound : document.Sound) (inside : id < document.size)
    (described : Described document id [] state parts) :
    (state.document.setChildren id kept).Sound := by
  have whole := described.whole_kept standsFor sound
  apply described.sound.setChildren (Nat.lt_of_lt_of_le inside described.size_le)
    (described.kept_lt_size standsFor sound)
  intro child member other isPart
  rw [parts_of_not_fragment (whole child member), List.mem_singleton] at isPart
  obtain ⟨part, found, rfl⟩ := standsFor child member
  exact isPart ▸ described.not_reaches_id sound inside found

/-- Nothing but the node gets other children. -/
theorem children_setChildren_kept (sound : document.Sound) (inside : id < document.size)
    (described : Described document id [] state parts) (distinct : kept.Nodup) (other : NodeId) :
    (state.document.setChildren id kept).children other =
      if other = id then kept else state.document.children other := by
  apply children_setChildren (Nat.lt_of_lt_of_le inside described.size_le)
    (described.whole_kept standsFor sound) distinct
  intro child member above different
  obtain ⟨part, found, rfl⟩ := standsFor child member
  exact described.not_mem_children sound found different

/-- Whether a part is kept does not depend on the children of the node. -/
theorem keepsPart_setChildren (sound : document.Sound) (inside : id < document.size)
    (described : Described document id [] state parts) (distinct : kept.Nodup) {part : Part}
    (found : part ∈ parts) :
    (state.document.setChildren id kept).keepsPart part.id =
      state.document.keepsPart part.id := by
  have core : ∀ other, ((state.document.setChildren id kept).node other).core =
      (state.document.node other).core := core_setChildren (described.whole_kept standsFor sound)
  have sameTree : ((state.document.setChildren id kept).tree part.id).bare =
      (state.document.tree part.id).bare := by
    apply bare_tree_congr described.sound (described.sound_setChildren standsFor sound inside)
    intro below path
    refine ⟨?_, Node.essence_eq_of_core_eq (core below)⟩
    rw [described.children_setChildren_kept standsFor sound inside distinct, if_neg]
    intro equal
    exact described.not_reaches_id sound inside found (equal ▸ path)
  rw [keepsPart, keepsPart, isBlank, isBlank, ← Tree.isBlank_bare, sameTree, Tree.isBlank_bare,
    Node.level_eq_of_traits_eq (Node.traits_eq_of_core_eq (core part.id))]

end Completing

/-- Where regrouping has passed all children, giving the parts to the node
completes it. -/
theorem complete (sound : document.Sound) (inside : id < document.size)
    (described : Described document id [] state parts) :
    Regrouped document id
      (state.document.setChildren id
        (state.reversed.reverse.filter state.document.keepsPart)) parts.reverse := by
  rw [described.reversed, ← List.map_reverse]
  generalize keptEq : (parts.reverse.map Part.id).filter state.document.keepsPart = kept
  have standsFor : ∀ child ∈ kept, ∃ part ∈ parts, part.id = child := by
    intro child member
    rw [← keptEq, List.mem_filter, List.mem_map] at member
    obtain ⟨⟨part, found, equal⟩, _⟩ := member
    exact ⟨part, List.mem_reverse.mp found, equal⟩
  have distinct : (parts.reverse.map Part.id).Nodup := by
    rw [List.map_reverse, List.nodup_reverse]
    exact described.distinct
  have keptNodup : kept.Nodup := keptEq ▸ distinct.filter _
  have whole := described.whole_kept standsFor sound
  have children := described.children_setChildren_kept standsFor sound inside keptNodup
  constructor
  · exact described.sound_setChildren standsFor sound inside
  · rw [size_setChildren whole]
    exact described.size_le
  · have listed := described.listed
    rw [List.append_nil] at listed
    exact listed
  · exact distinct
  · intro other old
    rw [core_setChildren whole, described.core other old]
  · intro other new bounded
    rw [size_setChildren whole] at bounded
    rw [core_setChildren whole, described.fresh other new bounded]
  · intro par content found
    rw [List.mem_reverse] at found
    obtain ⟨bounded, contains, before⟩ := described.paragraphs par content found
    refine ⟨(size_setChildren whole).symm ▸ bounded, ?_, before⟩
    rw [children, if_neg, contains]
    intro equal
    have isRefl : state.document.Reaches (Part.id (.paragraph par content)) id := by
      rw [Part.id, equal]
      exact Relation.ReflTransGen.refl
    exact described.not_reaches_id sound inside found isRefl
  · intro child found
    exact described.solids child (List.mem_reverse.mp found)
  · intro child moved
    apply described.loose child
    rw [Part.mem_moved] at moved ⊢
    obtain ⟨part, found, content⟩ := moved
    exact ⟨part, List.mem_reverse.mp found, content⟩
  · rw [children, if_pos rfl, ← keptEq]
    apply List.filter_congr
    intro child member
    obtain ⟨part, found, rfl⟩ := List.mem_map.mp member
    rw [keptEq, described.keepsPart_setChildren standsFor sound inside keptNodup
      (List.mem_reverse.mp found)]
  · intro other different outside
    rw [children, if_neg different]
    apply described.children other different
    intro content found
    exact outside content (List.mem_reverse.mpr found)
  · intro other old unlistedBefore
    have unmoved : other ∉ Part.moved parts := by
      intro moved
      exact unlistedBefore (described.mem_children_of_moved moved)
    have notKept : other ∉ kept := by
      intro member
      obtain ⟨part, found, rfl⟩ := standsFor other member
      exact unlistedBefore (described.mem_children_of_part found old)
    have notChild : other ∉ state.document.children id := by
      rw [described.children_id]
      intro member
      exact unlistedBefore (List.mem_filter.mp member).1
    rw [parent?_setChildren whole (described.kept_lt_size standsFor sound), if_neg notKept,
      if_neg notChild]
    exact described.parent other unmoved

end Described

namespace Regrouped

variable {document result : Document} {id : NodeId} {parts : List Part}

theorem mem_children_of_listed (regrouped : Regrouped document id result parts) {part : Part}
    (member : part ∈ parts) {child : NodeId} (listed : child ∈ part.listed document) :
    child ∈ document.children id := by
  rw [← regrouped.listed, List.mem_flatMap]
  exact ⟨part, member, listed⟩

theorem exists_part (regrouped : Regrouped document id result parts) {child : NodeId}
    (member : child ∈ document.children id) : ∃ part ∈ parts, child ∈ part.listed document := by
  rw [← regrouped.listed, List.mem_flatMap] at member
  exact member

/-- A part that stands for an old node stands for a child of the regrouped node. -/
theorem mem_children_of_part (regrouped : Regrouped document id result parts) {part : Part}
    (member : part ∈ parts) (old : part.id < document.size) :
    part.id ∈ document.children id := by
  apply regrouped.mem_children_of_listed member
  cases part with
  | paragraph par content => simp_all [Part.id, Part.listed]
  | solid child => simp [Part.id, Part.listed]

theorem part_lt_size (sound : document.Sound)
    (regrouped : Regrouped document id result parts) {part : Part} (member : part ∈ parts) :
    part.id < result.size := by
  cases part with
  | paragraph par content => exact (regrouped.paragraphs par content member).1
  | solid child =>
      have listed : child ∈ document.children id :=
        regrouped.mem_children_of_listed member (by simp [Part.listed])
      exact Nat.lt_of_lt_of_le (sound.lt_size listed) regrouped.size_le

/-- The content of a paragraph consists of children of the regrouped node. -/
theorem mem_children_of_content (regrouped : Regrouped document id result parts)
    {par child : NodeId} {content : List NodeId} (member : .paragraph par content ∈ parts)
    (inside : child ∈ content) : child ∈ document.children id :=
  regrouped.mem_children_of_listed member
    (Part.content_subset_listed document (.paragraph par content) inside)

/-- No part is put into a paragraph. -/
theorem not_mem_moved (sound : document.Sound)
    (regrouped : Regrouped document id result parts) {part : Part} (member : part ∈ parts) :
    part.id ∉ Part.moved parts := by
  intro moved
  obtain ⟨other, found, inside⟩ := Part.mem_moved.mp moved
  have isChild := regrouped.mem_children_of_listed found
    (other.content_subset_listed document inside)
  cases part with
  | paragraph par content =>
      have level := ((regrouped.paragraphs par content member).2.2 (sound.lt_size isChild)).1
      exact (regrouped.loose par moved).1 level
  | solid child => exact (regrouped.loose child moved).2 (regrouped.solids child member)

/-- Only the regrouped node lists parts. -/
theorem eq_of_mem_children (sound : document.Sound)
    (regrouped : Regrouped document id result parts) {part : Part} (member : part ∈ parts)
    {above : NodeId} (listed : part.id ∈ result.children above) : above = id := by
  by_contra different
  by_cases isParagraph : ∃ content, .paragraph above content ∈ parts
  · obtain ⟨content, found⟩ := isParagraph
    rw [(regrouped.paragraphs above content found).2.1] at listed
    exact regrouped.not_mem_moved sound member (Part.mem_moved.mpr ⟨_, found, listed⟩)
  · rw [regrouped.children above different (fun content found => isParagraph ⟨content, found⟩)]
      at listed
    have isChild := regrouped.mem_children_of_part member (sound.lt_size listed)
    exact sound.not_mem_of_mem isChild different listed

/-- A part with a parent has the regrouped node as its parent. -/
theorem eq_of_parent? (sound : document.Sound)
    (regrouped : Regrouped document id result parts) {part : Part} (member : part ∈ parts)
    {above : NodeId} (linked : result.parent? part.id = some above) : above = id :=
  regrouped.eq_of_mem_children sound member ((regrouped.sound.linked above _).mp linked)

/-- A paragraph that was there before has kept its level, and a new one has the same. -/
theorem level_paragraph (regrouped : Regrouped document id result parts) {par : NodeId}
    {content : List NodeId} (found : .paragraph par content ∈ parts) :
    (result.node par).level = Level.par := by
  obtain ⟨bounded, _, before⟩ := regrouped.paragraphs par content found
  by_cases old : par < document.size
  · have traits := Node.traits_eq_of_core_eq (regrouped.core par old)
    exact (Node.level_eq_of_traits_eq traits).trans (before old).1
  · have core := regrouped.fresh par (Nat.le_of_not_lt old) bounded
    exact Node.level_eq_of_traits_eq (Node.traits_eq_of_core_eq core)

/-- A paragraph among the children is put into no other one, but stands for a part. -/
theorem exists_part_of_par (regrouped : Regrouped document id result parts) {par : NodeId}
    (member : par ∈ document.children id) (level : (document.node par).level = Level.par) :
    ∃ part ∈ parts, part.id = par := by
  obtain ⟨part, found, listed⟩ := regrouped.exists_part member
  have notMoved : par ∉ part.content := fun inside =>
    (regrouped.loose par (Part.mem_moved.mpr ⟨part, found, inside⟩)).1 level
  refine ⟨part, found, ?_⟩
  cases part with
  | solid child => exact (List.mem_singleton.mp listed).symm
  | paragraph other content =>
      simp only [Part.listed] at listed
      split at listed
      · rcases List.mem_cons.mp listed with equal | inside
        · exact equal.symm
        · exact absurd inside notMoved
      · exact absurd listed notMoved

/-- A paragraph that was there before still lies where it did. -/
theorem parent?_of_par (sound : document.Sound)
    (regrouped : Regrouped document id result parts) {par top : NodeId}
    (old : par < document.size) (level : (document.node par).level = Level.par)
    (linked : result.parent? par = some top) : document.parent? par = some top := by
  by_cases isChild : par ∈ document.children id
  · obtain ⟨part, found, rfl⟩ := regrouped.exists_part_of_par isChild level
    rw [regrouped.eq_of_parent? sound found linked]
    exact (sound.linked id part.id).mpr isChild
  · rw [← regrouped.parent par old isChild]
    exact linked

end Regrouped

/-- Regrouping is asked for if it is forced or there is a paragraph among the children. -/
def AsksRegrouping (document : Document) (id : NodeId) (force : Bool) : Prop :=
  force = true ∨ ∃ child ∈ document.children id, (document.node child).level = Level.par

/-- Regrouping a node divides its children into parts if it is asked for. -/
theorem Sound.regrouped {document : Document} (sound : document.Sound) {id : NodeId}
    (inside : id < document.size) {force : Bool} (asked : document.AsksRegrouping id force) :
    ∃ parts, Regrouped document id (document.paragraphs id force) parts := by
  have start : Described document id _ _ _ := Described.start sound
  obtain ⟨parts, described⟩ := start.foldl sound
  refine ⟨parts.reverse, ?_⟩
  rw [Document.paragraphs, if_pos (by simpa [AsksRegrouping] using asked)]
  exact described.complete sound inside

theorem paragraphs_of_not_asked {document : Document} {id : NodeId} {force : Bool}
    (notAsked : ¬document.AsksRegrouping id force) : document.paragraphs id force = document := by
  rw [Document.paragraphs, if_neg (by simpa [AsksRegrouping] using notAsked)]

/-- Regrouping a node either changes nothing or divides its children into parts. -/
theorem Sound.paragraphs {document : Document} (sound : document.Sound) {id : NodeId}
    (inside : id < document.size) (force : Bool) :
    document.paragraphs id force = document ∨
      ∃ parts, Regrouped document id (document.paragraphs id force) parts := by
  by_cases asked : document.AsksRegrouping id force
  · exact .inr (sound.regrouped inside asked)
  · exact .inl (paragraphs_of_not_asked asked)

end TexTree.Document
