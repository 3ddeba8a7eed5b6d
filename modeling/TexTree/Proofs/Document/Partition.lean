import TexTree.Proofs.Document.Unfolding

/-!
# Regrouping into paragraphs, step by step

Regrouping goes through the children of a node once.  What it has done so far is
described by a list of parts: paragraphs with what was put into them, and children
that stay as they are.  Read in order, the parts list the children that have been
passed, so nothing is lost and nothing changes its place.

The description is kept up by every step (`Described.add`).
-/

namespace TexTree.Document

/-- What becomes of the children of a node that is regrouped. -/
inductive Part where
  /-- A paragraph, and the children that were put into it. -/
  | paragraph (par : NodeId) (content : List NodeId)
  /-- A child that stays as it is. -/
  | solid (child : NodeId)

namespace Part

/-- The node that stands for the part. -/
def id : Part → NodeId
  | .paragraph par _ => par
  | .solid child => child

/-- The children that were moved into the part. -/
def content : Part → List NodeId
  | .paragraph _ content => content
  | .solid _ => []

/-- The children that the part accounts for; a paragraph that was there before is
one of them. -/
def listed (document : Document) : Part → List NodeId
  | .paragraph par content => if par < document.size then par :: content else content
  | .solid child => [child]

/-- All children that were moved. -/
def moved (parts : List Part) : List NodeId := parts.flatMap content

theorem content_subset_listed (document : Document) (part : Part) {child : NodeId}
    (member : child ∈ part.content) : child ∈ part.listed document := by
  cases part with
  | paragraph par content =>
      simp only [listed]
      split
      · exact List.mem_cons_of_mem par member
      · exact member
  | solid child => cases member

theorem mem_moved {parts : List Part} {child : NodeId} :
    child ∈ moved parts ↔ ∃ part ∈ parts, child ∈ part.content := by
  simp [moved]

/-- One more child is put into the paragraph that is filled. -/
theorem mem_moved_concat {par child other : NodeId} {content : List NodeId} {older : List Part} :
    other ∈ moved (.paragraph par (content ++ [child]) :: older) ↔
      other = child ∨ other ∈ moved (.paragraph par content :: older) := by
  simp only [moved, List.flatMap_cons, Part.content, List.mem_append, List.mem_singleton]
  tauto

end Part

/-- Whether a child is kept outside of paragraphs. -/
def isSolid (document : Document) (child : NodeId) : Prop :=
  ((document.node child).level = Level.par ∧ document.children child ≠ []) ∨
    (document.node child).block = true ∨ (document.node child).level < Level.par

/-- The node of a new paragraph. -/
def paragraphNode : Node := element "par" Level.par .plain

/-- A state of regrouping is described by a list of parts, the current one first,
and by the children that are still to come. -/
structure Described (document : Document) (id : NodeId) (rest : List NodeId)
    (state : Regrouping) (parts : List Part) : Prop where
  sound : state.document.Sound
  size_le : document.size ≤ state.document.size
  current : ∃ content older, parts = .paragraph state.current content :: older
  reversed : state.reversed = parts.map Part.id
  distinct : (parts.map Part.id).Nodup
  listed : (parts.reverse.flatMap (Part.listed document)) ++ rest = document.children id
  core : ∀ other, other < document.size →
    (state.document.node other).core = (document.node other).core
  fresh : ∀ other, document.size ≤ other → other < state.document.size →
    (state.document.node other).core = paragraphNode.core
  paragraphs : ∀ par content, .paragraph par content ∈ parts →
    par < state.document.size ∧ state.document.children par = content ∧
      (par < document.size → (document.node par).level = Level.par ∧ document.children par = [])
  solids : ∀ child, .solid child ∈ parts → document.isSolid child
  loose : ∀ child ∈ Part.moved parts,
    (document.node child).level ≠ Level.par ∧ ¬document.isSolid child
  children_id : state.document.children id =
    (document.children id).filter (· ∉ Part.moved parts)
  children : ∀ other, other ≠ id → (∀ content, .paragraph other content ∉ parts) →
    state.document.children other = document.children other
  parent : ∀ other, other ∉ Part.moved parts →
    state.document.parent? other = document.parent? other

namespace Described

variable {document : Document} {id : NodeId}

theorem start (sound : document.Sound) :
    Described document id (document.children id) (Regrouping.openParagraph document [])
      [.paragraph document.size []] := by
  have created : (Regrouping.openParagraph document []).document =
      (document.create paragraphNode).2 := rfl
  have sameChildren : ∀ other, (document.create paragraphNode).2.children other =
      document.children other := children_create rfl
  constructor
  · exact sound.create rfl rfl
  · simp [created]
  · exact ⟨[], [], rfl⟩
  · rfl
  · simp
  · simp [Part.listed]
  · intro other old
    rw [created, node_create_of_lt _ old]
  · intro other new bounded
    rw [created, size_create] at bounded
    have equal : other = document.size := by omega
    rw [created, equal, node_create_self]
  · intro par content member
    simp only [List.mem_singleton, Part.paragraph.injEq] at member
    obtain ⟨rfl, rfl⟩ := member
    refine ⟨by simp [created], ?_, fun old => absurd old (Nat.lt_irrefl _)⟩
    rw [created, sameChildren, children_of_size_le (Nat.le_refl _)]
  · simp
  · simp [Part.moved, Part.content]
  · simp [created, sameChildren, Part.moved, Part.content]
  · intro other _ _
    rw [created, sameChildren]
  · intro other _
    rw [created, parent?_create rfl]

variable {rest : List NodeId} {state : Regrouping} {parts : List Part}

/-- The children that the parts account for are children of the node. -/
theorem mem_children_of_listed (described : Described document id rest state parts)
    {part : Part} (member : part ∈ parts) {child : NodeId}
    (listed : child ∈ part.listed document) : child ∈ document.children id := by
  rw [← described.listed, List.mem_append, List.mem_flatMap]
  exact .inl ⟨part, List.mem_reverse.mpr member, listed⟩

theorem mem_children_of_moved (described : Described document id rest state parts)
    {child : NodeId} (moved : child ∈ Part.moved parts) : child ∈ document.children id := by
  obtain ⟨part, member, content⟩ := Part.mem_moved.mp moved
  exact described.mem_children_of_listed member (part.content_subset_listed document content)

/-- A part that stands for an old node stands for a child of the regrouped node. -/
theorem mem_children_of_part (described : Described document id rest state parts)
    {part : Part} (member : part ∈ parts) (old : part.id < document.size) :
    part.id ∈ document.children id := by
  apply described.mem_children_of_listed member
  cases part with
  | paragraph par content => simp_all [Part.id, Part.listed]
  | solid child => simp [Part.id, Part.listed]

/-- Every part stands for a node. -/
theorem part_lt_size (sound : document.Sound)
    (described : Described document id rest state parts) {part : Part} (member : part ∈ parts) :
    part.id < state.document.size := by
  cases part with
  | paragraph par content => exact (described.paragraphs par content member).1
  | solid child =>
      have listed : child ∈ document.children id :=
        described.mem_children_of_listed member (by simp [Part.listed])
      exact Nat.lt_of_lt_of_le (sound.lt_size listed) described.size_le

/-- No part is put into a paragraph: what is put into one is neither a paragraph nor kept
outside. -/
theorem not_mem_moved (sound : document.Sound)
    (described : Described document id rest state parts) {part : Part} (member : part ∈ parts) :
    part.id ∉ Part.moved parts := by
  intro moved
  have isChild := described.mem_children_of_moved moved
  cases part with
  | paragraph par content =>
      have level := ((described.paragraphs par content member).2.2 (sound.lt_size isChild)).1
      exact (described.loose par moved).1 level
  | solid child => exact (described.loose child moved).2 (described.solids child member)

/-- The next child is accounted for by no part yet. -/
theorem not_listed {child : NodeId} (sound : document.Sound)
    (described : Described document id (child :: rest) state parts) {part : Part}
    (member : part ∈ parts) : child ∉ part.listed document := by
  have nodup := sound.nodup id
  rw [← described.listed, List.nodup_append] at nodup
  intro listed
  refine nodup.2.2 child ?_ child List.mem_cons_self rfl
  exact List.mem_flatMap.mpr ⟨part, List.mem_reverse.mpr member, listed⟩

/-- What is known about the next child. -/
theorem next {child : NodeId} (sound : document.Sound)
    (described : Described document id (child :: rest) state parts) :
    child ∈ document.children id ∧ child ∉ Part.moved parts ∧ child ∉ parts.map Part.id := by
  have member : child ∈ document.children id := by
    rw [← described.listed]
    simp
  refine ⟨member, ?_, ?_⟩
  · intro moved
    obtain ⟨part, found, content⟩ := Part.mem_moved.mp moved
    exact described.not_listed sound found (part.content_subset_listed document content)
  · intro stands
    obtain ⟨part, found, equal⟩ := List.mem_map.mp stands
    have old := sound.lt_size member
    apply described.not_listed sound found
    cases part with
    | paragraph par content => simp_all [Part.id, Part.listed]
    | solid child => simp_all [Part.id, Part.listed]

/-- The children of the next child are as they were. -/
theorem children_next {child : NodeId} (sound : document.Sound)
    (described : Described document id (child :: rest) state parts) :
    state.document.children child = document.children child := by
  obtain ⟨member, _, apart⟩ := described.next sound
  apply described.children child (sound.ne_of_mem member)
  intro content found
  exact apart (List.mem_map.mpr ⟨_, found, rfl⟩)

/-- A break without content is filled from now on. -/
theorem add_break {child : NodeId} (sound : document.Sound)
    (described : Described document id (child :: rest) state parts)
    (level : (document.node child).level = Level.par) (empty : document.children child = []) :
    Described document id rest ⟨state.document, child, child :: state.reversed⟩
      (.paragraph child [] :: parts) := by
  obtain ⟨member, unmoved, apart⟩ := described.next sound
  have old := sound.lt_size member
  have sameMoved : Part.moved (.paragraph child [] :: parts) = Part.moved parts := rfl
  constructor
  · exact described.sound
  · exact described.size_le
  · exact ⟨[], parts, rfl⟩
  · simp [described.reversed, Part.id]
  · rw [List.map_cons, List.nodup_cons]
    exact ⟨apart, described.distinct⟩
  · rw [← described.listed]
    simp [Part.listed, old]
  · exact described.core
  · exact described.fresh
  · intro par content found
    rcases List.mem_cons.mp found with equal | older
    · cases equal
      refine ⟨Nat.lt_of_lt_of_le old described.size_le, ?_, fun _ => ⟨level, empty⟩⟩
      exact (described.children_next sound).trans empty
    · exact described.paragraphs par content older
  · intro kept found
    exact described.solids kept (List.mem_of_ne_of_mem (by simp) found)
  · rw [sameMoved]
    exact described.loose
  · rw [sameMoved]
    exact described.children_id
  · intro other different outside
    apply described.children other different
    intro content found
    exact outside content (List.mem_cons_of_mem _ found)
  · intro other
    rw [sameMoved]
    exact described.parent other

/-- Behind a child that stays as it is, a new paragraph begins. -/
theorem add_solid {child : NodeId} (sound : document.Sound)
    (described : Described document id (child :: rest) state parts)
    (solid : document.isSolid child) :
    Described document id rest
      (Regrouping.openParagraph state.document (child :: state.reversed))
      (.paragraph state.document.size [] :: .solid child :: parts) := by
  obtain ⟨member, unmoved, apart⟩ := described.next sound
  have old := sound.lt_size member
  have size_le := described.size_le
  have created : (Regrouping.openParagraph state.document (child :: state.reversed)).document =
      (state.document.create paragraphNode).2 := rfl
  have sameChildren : ∀ other, (state.document.create paragraphNode).2.children other =
      state.document.children other := children_create rfl
  have sameMoved : Part.moved (.paragraph state.document.size [] :: .solid child :: parts) =
      Part.moved parts := rfl
  constructor
  · exact described.sound.create rfl rfl
  · rw [created, size_create]
    omega
  · exact ⟨[], _, rfl⟩
  · simp [Regrouping.openParagraph, described.reversed, Part.id, createElement, create, size]
  · simp only [List.map_cons, Part.id, List.nodup_cons, List.mem_cons, not_or]
    refine ⟨⟨?_, ?_⟩, apart, described.distinct⟩
    · exact Nat.ne_of_gt (Nat.lt_of_lt_of_le old size_le)
    · intro stands
      obtain ⟨part, found, equal⟩ := List.mem_map.mp stands
      exact absurd equal (Nat.ne_of_lt (described.part_lt_size sound found))
  · rw [← described.listed]
    have new : ¬state.document.size < document.size := by omega
    simp [Part.listed, new]
  · intro other isOld
    rw [created, node_create_of_lt _ (Nat.lt_of_lt_of_le isOld size_le)]
    exact described.core other isOld
  · intro other new inside
    rw [created, size_create] at inside
    by_cases equal : other = state.document.size
    · rw [created, equal, node_create_self]
    · have lower : other < state.document.size := by omega
      rw [created, node_create_of_lt _ lower]
      exact described.fresh other new lower
  · intro par content found
    rw [created, size_create, sameChildren]
    rcases List.mem_cons.mp found with equal | later
    · cases equal
      refine ⟨Nat.lt_succ_self _, children_of_size_le (Nat.le_refl _), ?_⟩
      intro isOld
      omega
    · rcases List.mem_cons.mp later with impossible | older
      · cases impossible
      · obtain ⟨inside, content, before⟩ := described.paragraphs par content older
        exact ⟨Nat.lt_succ_of_lt inside, content, before⟩
  · intro kept found
    rcases List.mem_cons.mp (List.mem_of_ne_of_mem (by simp) found) with equal | older
    · cases equal
      exact solid
    · exact described.solids kept older
  · rw [sameMoved]
    exact described.loose
  · rw [sameMoved, created, sameChildren]
    exact described.children_id
  · intro other different outside
    rw [created, sameChildren]
    apply described.children other different
    intro content found
    exact outside content (List.mem_cons_of_mem _ (List.mem_cons_of_mem _ found))
  · intro other
    rw [sameMoved, created, parent?_create rfl]
    exact described.parent other

/-- The current paragraph does not lie below a child that is put into it. -/
theorem not_reaches_current {child : NodeId} (sound : document.Sound)
    (described : Described document id (child :: rest) state parts) :
    ¬state.document.Reaches child state.current := by
  obtain ⟨member, unmoved, apart⟩ := described.next sound
  obtain ⟨content, older, equal⟩ := described.current
  have found : .paragraph state.current content ∈ parts := by
    rw [equal]
    exact List.mem_cons_self
  have different : child ≠ state.current := by
    intro same
    exact apart (List.mem_map.mpr ⟨_, found, same.symm⟩)
  -- A paragraph that is put into another one would have been passed before.
  have currentUnmoved : state.current ∉ Part.moved parts := described.not_mem_moved sound found
  intro path
  rcases Relation.ReflTransGen.cases_tail path with same | ⟨middle, before, step⟩
  · exact different same.symm
  · have linked := (described.sound.linked middle state.current).mpr step
    rw [described.parent _ currentUnmoved] at linked
    have old : state.current < document.size := lt_size_of_parent? linked
    have listed := described.mem_children_of_part found old
    rw [show Part.id (.paragraph state.current content) = state.current from rfl] at listed
    rw [(sound.linked id _).mpr listed, Option.some.injEq] at linked
    subst linked
    have stays : child ∈ state.document.children id := by
      rw [described.children_id, List.mem_filter]
      exact ⟨member, by simpa using unmoved⟩
    exact described.sound.not_reaches_of_mem stays before

/-- A node whose children are regrouped is no paragraph that was made or filled by it. -/
theorem paragraph_ne {child : NodeId} (sound : document.Sound)
    (described : Described document id (child :: rest) state parts) {par : NodeId}
    {content : List NodeId} (found : .paragraph par content ∈ parts) : par ≠ id := by
  intro isId
  subst isId
  have member := (described.next sound).1
  have empty := ((described.paragraphs par content found).2.2 (lt_size_of_mem_children member)).2
  rw [empty] at member
  cases member

/-- The next child is no fragment, so that it is put into a paragraph as it is. -/
theorem whole_next {child : NodeId} (sound : document.Sound)
    (described : Described document id (child :: rest) state parts) :
    (state.document.node child).kind ≠ .fragment := by
  have member := (described.next sound).1
  rw [Node.kind_eq_of_core_eq (described.core child (sound.lt_size member))]
  exact sound.whole id child member

/-- Only the regrouped node and the current paragraph have other children when the next child is
put into this paragraph. -/
theorem children_attach_current {child : NodeId} (sound : document.Sound)
    (described : Described document id (child :: rest) state parts)
    (inside : state.current < state.document.size) {other : NodeId} (notId : other ≠ id)
    (notCurrent : other ≠ state.current) :
    (state.document.attach state.current child).children other =
      state.document.children other := by
  obtain ⟨member, unmoved, _⟩ := described.next sound
  rw [children_attach inside, if_neg notCurrent, List.append_nil, children_detach_of_not_mem]
  intro listed
  have linked := (described.sound.linked other child).mpr listed
  rw [described.parent child unmoved, (sound.linked id child).mpr member] at linked
  exact notId (Option.some.inj linked).symm

/-- Every other child is put into the current paragraph. -/
theorem add_loose {child : NodeId} (sound : document.Sound)
    (described : Described document id (child :: rest) state parts)
    (level : (document.node child).level ≠ Level.par) (loose : ¬document.isSolid child) :
    ∃ parts', Described document id rest
      { state with document := state.document.append state.current child } parts' := by
  obtain ⟨member, unmoved, _⟩ := described.next sound
  obtain ⟨content, older, rfl⟩ := described.current
  have childInside : child < state.document.size :=
    Nat.lt_of_lt_of_le (sound.lt_size member) described.size_le
  obtain ⟨currentInside, currentChildren, currentBefore⟩ :=
    described.paragraphs state.current content List.mem_cons_self
  have entire := described.whole_next sound
  have attached : state.document.append state.current child =
      state.document.attach state.current child := append_of_not_fragment entire
  have notCurrent : ∀ part ∈ older, part.id ≠ state.current := by
    have distinct := described.distinct
    rw [List.map_cons, List.nodup_cons] at distinct
    intro part found isCurrent
    exact distinct.1 (List.mem_map.mpr ⟨part, found, isCurrent⟩)
  refine ⟨.paragraph state.current (content ++ [child]) :: older, ?_⟩
  rw [attached]
  constructor
  · exact described.sound.attach currentInside childInside entire
      (described.not_reaches_current sound)
  · simpa using described.size_le
  · exact ⟨content ++ [child], older, rfl⟩
  · exact described.reversed
  · exact described.distinct
  · rw [← described.listed]
    simp only [List.reverse_cons, List.flatMap_append, List.flatMap_singleton, Part.listed]
    split <;> simp
  · intro other isOld
    rw [core_attach]
    exact described.core other isOld
  · intro other new inside
    rw [core_attach]
    exact described.fresh other new (by simpa using inside)
  · intro par inner found
    rw [size_attach]
    rcases List.mem_cons.mp found with same | later
    · cases same
      refine ⟨currentInside, ?_, currentBefore⟩
      rw [children_attach currentInside, if_pos rfl, children_detach_of_not_mem, currentChildren]
      rw [currentChildren]
      intro listed
      exact unmoved (Part.mem_moved.mpr ⟨_, List.mem_cons_self, listed⟩)
    · obtain ⟨inside, contains, before⟩ :=
        described.paragraphs par inner (List.mem_cons_of_mem _ later)
      refine ⟨inside, ?_, before⟩
      rw [← contains]
      exact described.children_attach_current sound currentInside
        (described.paragraph_ne sound (List.mem_cons_of_mem _ later)) (notCurrent _ later)
  · intro kept found
    exact described.solids kept
      (List.mem_cons_of_mem _ (List.mem_of_ne_of_mem (by simp) found))
  · intro other found
    rcases Part.mem_moved_concat.mp found with same | before
    · subst same
      exact ⟨level, loose⟩
    · exact described.loose other before
  · have notId := described.paragraph_ne sound List.mem_cons_self
    rw [children_attach currentInside, if_neg notId.symm, List.append_nil,
      described.sound.consistent.children_detach, described.children_id, List.filter_filter]
    apply List.filter_congr
    intro other _
    rw [Bool.eq_iff_iff]
    simp [Part.mem_moved_concat]
  · intro other different outside
    have isOther : other ≠ state.current := by
      intro isCurrent
      subst isCurrent
      exact outside _ List.mem_cons_self
    rw [described.children_attach_current sound currentInside different isOther]
    apply described.children other different
    intro inner found
    rcases List.mem_cons.mp found with same | later
    · cases same
      exact isOther rfl
    · exact outside inner (List.mem_cons_of_mem _ later)
  · intro other outside
    rw [Part.mem_moved_concat, not_or] at outside
    rw [parent?_attach childInside, if_neg outside.1]
    exact described.parent other outside.2

/-- A step of regrouping keeps its state described. -/
theorem add {child : NodeId} (sound : document.Sound)
    (described : Described document id (child :: rest) state parts) :
    ∃ parts', Described document id rest (state.add child) parts' := by
  obtain ⟨member, _, _⟩ := described.next sound
  have sameCore := described.core child (sound.lt_size member)
  have sameTraits := Node.traits_eq_of_core_eq sameCore
  have level : (state.document.node child).level = (document.node child).level :=
    Node.level_eq_of_traits_eq sameTraits
  have block : (state.document.node child).block = (document.node child).block :=
    Node.block_eq_of_traits_eq sameTraits
  have children : (state.document.node child).children = document.children child :=
    described.children_next sound
  unfold Regrouping.add
  simp only [level, block, children]
  split
  · next isBreak =>
      simp only [Bool.and_eq_true, decide_eq_true_eq, List.isEmpty_iff] at isBreak
      exact ⟨_, described.add_break sound isBreak.1 isBreak.2⟩
  · next noBreak =>
      simp only [Bool.and_eq_true, decide_eq_true_eq, List.isEmpty_iff, not_and] at noBreak
      split
      · next isSolid =>
          simp only [Bool.or_eq_true, decide_eq_true_eq] at isSolid
          refine ⟨_, described.add_solid sound ?_⟩
          rcases isSolid with (isPar | isBlock) | isLow
          · exact .inl ⟨isPar, noBreak isPar⟩
          · exact .inr (.inl isBlock)
          · exact .inr (.inr isLow)
      · next isLoose =>
          simp only [Bool.or_eq_true, decide_eq_true_eq, not_or] at isLoose
          obtain ⟨⟨notPar, notBlock⟩, notLow⟩ := isLoose
          apply described.add_loose sound notPar
          rintro (⟨isPar, _⟩ | isBlock | isLow)
          · exact notPar isPar
          · exact notBlock isBlock
          · exact notLow isLow

/-- Regrouping all children keeps its state described. -/
theorem foldl (sound : document.Sound)
    (described : Described document id rest state parts) :
    ∃ parts', Described document id [] (rest.foldl Regrouping.add state) parts' := by
  induction rest generalizing state parts with
  | nil => exact ⟨parts, described⟩
  | cons child rest ih =>
      obtain ⟨parts', next⟩ := described.add sound
      exact ih next

end Described

end TexTree.Document
