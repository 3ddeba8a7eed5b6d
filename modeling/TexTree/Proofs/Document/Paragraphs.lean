import TexTree.Proofs.Document.Operations
import TexTree.Proofs.Document.VisibleText

/-!
# What regrouping makes of the children of a node

Regrouping divides the children of a node into paragraphs, blocks and nodes of a level
below paragraphs.  This module says what the node looks like afterwards: which nodes are
its children, what was kept and where, and that regrouping a second time changes nothing
(`regrouped_children`).

All of it is read off the parts that the children were divided into.  Regrouping a second
time fills no paragraph, so the parts are the children themselves and empty paragraphs that
are dropped.

A text that is itself a paragraph would hide the children it is given.  There is none in a
document that was made by its operations (`TextsInline.run`).
-/

namespace TexTree.Document

variable {document result again : Document} {id child : NodeId} {parts : List Part}

/-! ## Texts are no paragraphs -/

theorem TextsInline.empty : Document.empty.TextsInline := by
  intro id content isText
  cases id with
  | zero => cases isText
  | succ id =>
      rw [node_of_size_le (by simp [Document.empty, size])] at isText
      cases isText

theorem TextsInline.of_core (inline : document.TextsInline)
    (core : ∀ id, (result.node id).core = (document.node id).core) : result.TextsInline := by
  intro id content isText
  rw [Node.level_eq_of_traits_eq (Node.traits_eq_of_core_eq (core id))]
  exact inline id content ((Node.kind_eq_of_core_eq (core id)).symm.trans isText)

theorem TextsInline.create (inline : document.TextsInline) {node : Node}
    (suits : ∀ content, node.kind = .text content → node.level ≠ Level.par) :
    (document.create node).2.TextsInline := by
  intro id content isText
  rw [node_create] at isText ⊢
  split
  · next new =>
      rw [if_pos new] at isText
      exact suits content isText
  · next old =>
      rw [if_neg old] at isText
      exact inline id content isText

theorem TextsInline.appendText (inline : document.TextsInline) (parent : NodeId)
    (content : String) : (document.appendText parent content).TextsInline := by
  rcases document.appendText_cases parent content with
    ⟨last, start, _, isText, equal⟩ | ⟨_, equal⟩
  · rw [equal]
    intro id content' isText'
    rw [node_modify] at isText' ⊢
    split
    · next same => exact same.1 ▸ inline last start isText
    · next other =>
        rw [if_neg other] at isText'
        exact inline id content' isText'
  · rw [equal]
    exact (inline.create (by simp [textNode, Level.command, Level.par])).of_core
      (core_attach _ parent _)

theorem TextsInline.append (inline : document.TextsInline) (parent child : NodeId) :
    (document.append parent child).TextsInline :=
  inline.of_core (core_append document parent child)

theorem TextsInline.setChildren (inline : document.TextsInline) (parent : NodeId)
    (children : List NodeId) : (document.setChildren parent children).TextsInline :=
  setChildren_induction (inline.of_core (core_release document parent))
    fun child _ _ _ middleInline => middleInline.append parent child

theorem TextsInline.openParagraph (inline : document.TextsInline) (reversed : List NodeId) :
    (Regrouping.openParagraph document reversed).document.TextsInline :=
  inline.create fun _ isText => by cases isText

theorem TextsInline.add {state : Regrouping} (inline : state.document.TextsInline)
    (child : NodeId) : (state.add child).document.TextsInline := by
  unfold Regrouping.add
  dsimp only
  split
  · exact inline
  · split
    · exact inline.openParagraph _
    · exact inline.append _ _

theorem TextsInline.paragraphs (inline : document.TextsInline) (id : NodeId) (force : Bool) :
    (document.paragraphs id force).TextsInline := by
  have regroups : ∀ (children : List NodeId) (state : Regrouping), state.document.TextsInline →
      (children.foldl Regrouping.add state).document.TextsInline := by
    intro children
    induction children with
    | nil => exact fun _ isSo => isSo
    | cons child rest ih => exact fun state isSo => ih _ (isSo.add child)
  unfold Document.paragraphs
  dsimp only
  split
  · exact (regroups _ _ (inline.openParagraph [])).setChildren _ _
  · exact inline

theorem TextsInline.apply (inline : document.TextsInline) (operation : Operation) :
    (operation.apply document).TextsInline := by
  cases operation with
  | createElement name level mode => exact inline.create fun _ isText => by cases isText
  | createText content => exact inline.create (by simp [Level.command, Level.par])
  | createFragment => exact inline.create fun _ isText => by cases isText
  | append parent child => exact inline.append parent child
  | appendText parent content => exact inline.appendText parent content
  | setChildren parent children => exact inline.setChildren parent children
  | paragraphs id force => exact inline.paragraphs id force

/-- In a document that is made by operations, no text is a paragraph. -/
theorem TextsInline.run (inline : document.TextsInline) (operations : List Operation) :
    (document.run operations).TextsInline := by
  induction operations generalizing document with
  | nil => exact inline
  | cons operation rest ih => exact ih (inline.apply operation)

/-! ## The children of a regrouped node -/

/-- The nodes that are read below a node, paragraphs being replaced by what they hold. -/
def reading (document : Document) (id : NodeId) : List NodeId :=
  (document.children id).flatMap fun child =>
    if (document.node child).level = Level.par then document.children child else [child]

/-- What a child of a regrouped node is: a paragraph with something in it, a block, or a node
of a level below paragraphs. -/
def Arranged (document : Document) (child : NodeId) : Prop :=
  (document.node child).level = Level.par ∧ ¬document.isBlank child ∨
    (document.node child).block = true ∨ (document.node child).level < Level.par

/-- What a node looks like when its children have been regrouped into paragraphs. -/
structure Paragraphed (document : Document) (id : NodeId) (result : Document) : Prop where
  /-- Paragraphs, blocks and nodes of a low level are all there is. -/
  arranged : ∀ child ∈ result.children id, result.Arranged child
  /-- The visible text is what it was. -/
  text : Text.visible (result.textContent id).toList =
    Text.visible (document.textContent id).toList
  /-- Blocks and nodes of a low level are still children. -/
  outside : ∀ child ∈ document.children id, (document.node child).level ≠ Level.par →
    (document.node child).block = true ∨ (document.node child).level < Level.par →
      child ∈ result.children id
  /-- Other children are in a paragraph now, unless they are white space. -/
  inside : ∀ child ∈ document.children id, (document.node child).level ≠ Level.par →
    ¬((document.node child).block = true ∨ (document.node child).level < Level.par) →
      ¬document.isBlank child →
        ∃ par ∈ result.children id, (result.node par).level = Level.par ∧
          child ∈ result.children par
  /-- Children that are no paragraphs and no white space are read in the order they had. -/
  order : ((document.children id).filter fun child =>
      (document.node child).level ≠ Level.par ∧ ¬document.isBlank child).Sublist
    (result.reading id)
  /-- Regrouping a second time changes nothing. -/
  stable : (result.paragraphs id true).children id = result.children id

/-- Whether a paragraph is blank depends on its children. -/
theorem Sound.isBlank_of_mem (sound : document.Sound) (inline : document.TextsInline)
    (level : (document.node id).level = Level.par) (blank : document.isBlank id)
    (member : child ∈ document.children id) : document.isBlank child := by
  have all : ∀ trees : List Tree, Tree.allBlank trees → ∀ tree ∈ trees, tree.isBlank := by
    intro trees
    induction trees with
    | nil => simp
    | cons first rest ih =>
        intro blank tree isTree
        rw [Tree.allBlank, Bool.and_eq_true] at blank
        rcases List.mem_cons.mp isTree with rfl | later
        · exact blank.1
        · exact ih blank.2 tree later
  rw [isBlank, sound.tree_eq, Tree.isBlank] at blank
  split at blank
  · next content isText => exact absurd isText (inline.not_text level content)
  · rw [Bool.and_eq_true] at blank
    exact all _ blank.2 _ (List.mem_map.mpr ⟨child, member, rfl⟩)
  · cases blank

/-- A paragraph is kept unless it is blank. -/
theorem keepsPart_iff : document.keepsPart child = true ↔
    ((document.node child).level = Level.par → ¬document.isBlank child) := by
  simp [keepsPart, imp_iff_not_or]

namespace Regrouped

theorem isBlank_of_bare {child : NodeId}
    (same : (result.tree child).bare = (document.tree child).bare) :
    result.isBlank child = document.isBlank child := by
  rw [isBlank, isBlank, ← Tree.isBlank_bare, same, Tree.isBlank_bare]

/-- The children are the parts that are kept. -/
theorem mem_children_iff (regrouped : Regrouped document id result parts) :
    child ∈ result.children id ↔
      (∃ part ∈ parts, part.id = child) ∧ result.keepsPart child = true := by
  rw [regrouped.children_id, List.mem_filter, List.mem_map]

theorem level_eq (regrouped : Regrouped document id result parts) (sound : document.Sound)
    (member : child ∈ document.children id) :
    (result.node child).level = (document.node child).level :=
  Node.level_eq_of_traits_eq
    (Node.traits_eq_of_core_eq (regrouped.core child (sound.lt_size member)))

theorem block_eq (regrouped : Regrouped document id result parts) (sound : document.Sound)
    (member : child ∈ document.children id) :
    (result.node child).block = (document.node child).block :=
  Node.block_eq_of_traits_eq
    (Node.traits_eq_of_core_eq (regrouped.core child (sound.lt_size member)))

/-- What was put into a paragraph is seen there, unless it is white space. -/
theorem mem_paragraph (regrouped : Regrouped document id result parts) (sound : document.Sound)
    (inline : document.TextsInline) {par : NodeId} {content : List NodeId}
    (found : .paragraph par content ∈ parts) (member : child ∈ content)
    (shown : ¬document.isBlank child) :
    par ∈ result.children id ∧ child ∈ result.children par := by
  have contains : child ∈ result.children par := by
    rwa [(regrouped.paragraphs par content found).2.1]
  have notBlank : ¬result.isBlank par := by
    intro blank
    apply shown
    rw [← isBlank_of_bare (regrouped.bare_tree_of_content sound found member)]
    exact regrouped.sound.isBlank_of_mem (inline.of_regrouped regrouped)
      (regrouped.level_paragraph found) blank contains
  exact ⟨regrouped.mem_children_iff.mpr ⟨⟨_, found, rfl⟩, keepsPart_iff.mpr fun _ => notBlank⟩,
    contains⟩

/-- A child that is no paragraph stays a child if it is a block or of a low level, and
otherwise it was put into a paragraph. -/
theorem solid_or_content (regrouped : Regrouped document id result parts)
    (member : child ∈ document.children id)
    (noParagraph : (document.node child).level ≠ Level.par) :
    (.solid child ∈ parts ∧ document.isSolid child) ∨
      ∃ par content, .paragraph par content ∈ parts ∧ child ∈ content ∧
        ¬document.isSolid child := by
  obtain ⟨part, found, listed⟩ := regrouped.exists_part member
  cases part with
  | solid kept =>
      obtain rfl := List.mem_singleton.mp listed
      exact .inl ⟨found, regrouped.solids child found⟩
  | paragraph par content =>
      have inside : child ∈ content := by
        rw [Part.listed] at listed
        split at listed
        · next old =>
            refine (List.mem_cons.mp listed).resolve_left fun equal => noParagraph ?_
            exact equal ▸ ((regrouped.paragraphs par content found).2.2 old).1
        · exact listed
      exact .inr ⟨par, content, found, inside,
        (regrouped.loose child (Part.mem_moved.mpr ⟨_, found, inside⟩)).2⟩

theorem arranged (regrouped : Regrouped document id result parts) (sound : document.Sound)
    (member : child ∈ result.children id) : result.Arranged child := by
  obtain ⟨⟨part, found, rfl⟩, kept⟩ := regrouped.mem_children_iff.mp member
  rw [keepsPart_iff] at kept
  cases part with
  | paragraph par content =>
      have level := regrouped.level_paragraph found
      exact .inl ⟨level, kept level⟩
  | solid child =>
      have isChild : child ∈ document.children id :=
        regrouped.mem_children_of_listed found (by simp [Part.listed])
      have level := regrouped.level_eq sound isChild
      rcases regrouped.solids child found with ⟨isParagraph, _⟩ | block | low
      · exact .inl ⟨level.trans isParagraph, kept (level.trans isParagraph)⟩
      · exact .inr (.inl ((regrouped.block_eq sound isChild).trans block))
      · exact .inr (.inr (by rw [Part.id, level]; exact low))

/-- The children that are no paragraphs and no white space are read where their part is. -/
theorem sublist_part (regrouped : Regrouped document id result parts) (sound : document.Sound)
    (inline : document.TextsInline) {part : Part} (found : part ∈ parts) :
    ((part.listed document).filter fun child =>
        (document.node child).level ≠ Level.par ∧ ¬document.isBlank child).Sublist
      (([part.id].filter result.keepsPart).flatMap fun child =>
        if (result.node child).level = Level.par then result.children child else [child]) := by
  cases part with
  | solid child =>
      have isChild : child ∈ document.children id :=
        regrouped.mem_children_of_listed found (by simp [Part.listed])
      have level := regrouped.level_eq sound isChild
      by_cases isParagraph : (document.node child).level = Level.par
      · simp [Part.listed, isParagraph]
      · simp [Part.listed, Part.id, keepsPart, level, isParagraph]
  | paragraph par content =>
      obtain ⟨_, children, isBreak⟩ := regrouped.paragraphs par content found
      have level := regrouped.level_paragraph found
      have listed : ((Part.paragraph par content).listed document).filter (fun child =>
          (document.node child).level ≠ Level.par ∧ ¬document.isBlank child) =
            content.filter fun child =>
              (document.node child).level ≠ Level.par ∧ ¬document.isBlank child := by
        rw [Part.listed]
        split
        · next old => simp [(isBreak old).1]
        · rfl
      rw [listed, Part.id]
      by_cases kept : result.keepsPart par
      · simp [kept, level, children]
      · -- In a paragraph that is dropped, all is white space.
        have nothing : content.filter (fun child =>
            (document.node child).level ≠ Level.par ∧ ¬document.isBlank child) = [] := by
          rw [List.filter_eq_nil_iff]
          intro child member shown
          rw [decide_eq_true_iff] at shown
          have isPart := (regrouped.mem_paragraph sound inline found member shown.2).1
          exact kept (regrouped.mem_children_iff.mp isPart).2
        rw [nothing]
        exact List.nil_sublist _

/-- The children that are no paragraphs and no white space are read in their old order. -/
theorem order (regrouped : Regrouped document id result parts) (sound : document.Sound)
    (inline : document.TextsInline) :
    ((document.children id).filter fun child =>
        (document.node child).level ≠ Level.par ∧ ¬document.isBlank child).Sublist
      (result.reading id) := by
  rw [reading, regrouped.children_id, ← regrouped.listed]
  have each := fun part (found : part ∈ parts) => regrouped.sublist_part sound inline found
  clear regrouped
  induction parts with
  | nil => exact List.nil_sublist _
  | cons part rest ih =>
      rw [List.flatMap_cons, List.filter_append, List.map_cons, ← List.singleton_append,
        List.filter_append, List.flatMap_append]
      exact (each part List.mem_cons_self).append
        (ih fun later found => each later (List.mem_cons_of_mem part found))

/-- Regrouping children that are arranged already fills no paragraph. -/
theorem content_eq_nil (regrouped : Regrouped document id result parts)
    (arranged : ∀ child ∈ document.children id, document.Arranged child)
    {par : NodeId} {content : List NodeId} (found : .paragraph par content ∈ parts) :
    content = [] := by
  rw [List.eq_nil_iff_forall_not_mem]
  intro child member
  obtain ⟨noParagraph, notSolid⟩ :=
    regrouped.loose child (Part.mem_moved.mpr ⟨_, found, member⟩)
  rcases arranged child (regrouped.mem_children_of_content found member) with
    ⟨level, _⟩ | solid
  · exact noParagraph level
  · exact notSolid (.inr solid)

/-- Regrouping children that are arranged already keeps them. -/
theorem children_eq (regrouped : Regrouped document id result parts) (sound : document.Sound)
    (arranged : ∀ child ∈ document.children id, document.Arranged child)
    (kept : ∀ child ∈ document.children id, document.keepsPart child = true) :
    result.children id = document.children id := by
  have stays : ∀ child ∈ document.children id, result.keepsPart child = true := by
    intro child member
    have same := regrouped.bare_tree_of_mem sound member fun content found =>
      regrouped.content_eq_nil arranged found
    rw [keepsPart_iff, regrouped.level_eq sound member, isBlank_of_bare same]
    exact keepsPart_iff.mp (kept child member)
  have each : ∀ part ∈ parts, [part.id].filter result.keepsPart = part.listed document := by
    intro part found
    cases part with
    | solid child =>
        have isChild : child ∈ document.children id :=
          regrouped.mem_children_of_listed found (by simp [Part.listed])
        simp [Part.listed, Part.id, stays child isChild]
    | paragraph par content =>
        obtain rfl := regrouped.content_eq_nil arranged found
        by_cases old : par < document.size
        · have isChild : par ∈ document.children id := regrouped.mem_children_of_part found old
          simp [Part.listed, Part.id, old, stays par isChild]
        · obtain ⟨inside, children, _⟩ := regrouped.paragraphs par [] found
          have dropped : ¬result.keepsPart par = true := by
            rw [keepsPart_iff, not_forall, not_not]
            refine ⟨regrouped.level_paragraph found, ?_⟩
            have core := regrouped.fresh par (Nat.le_of_not_lt old) inside
            have kind := Node.kind_eq_of_core_eq core
            have name : (result.node par).name = "par" := congrArg Node.name core
            rw [isBlank, regrouped.sound.tree_eq, Tree.isBlank, kind, children, name]
            rfl
          simp [Part.listed, Part.id, old, dropped]
  rw [regrouped.children_id, ← regrouped.listed]
  clear regrouped
  induction parts with
  | nil => rfl
  | cons part rest ih =>
      rw [List.map_cons, ← List.singleton_append, List.filter_append, List.flatMap_cons,
        each part List.mem_cons_self,
        ih fun later found => each later (List.mem_cons_of_mem part found)]

theorem stable (regrouped : Regrouped document id result parts) (sound : document.Sound)
    (inside : id < document.size) :
    (result.paragraphs id true).children id = result.children id := by
  have forced : result.AsksRegrouping id true := .inl rfl
  obtain ⟨later, again⟩ :=
    regrouped.sound.regrouped (Nat.lt_of_lt_of_le inside regrouped.size_le) forced
  refine again.children_eq regrouped.sound (fun child member => regrouped.arranged sound member) ?_
  exact fun child member => (regrouped.mem_children_iff.mp member).2

theorem paragraphed (regrouped : Regrouped document id result parts) (sound : document.Sound)
    (inline : document.TextsInline) (inside : id < document.size)
    (visible : result.within .visible id = document.within .visible id) :
    document.Paragraphed id result where
  arranged child member := regrouped.arranged sound member
  text := by
    have kind := Node.kind_eq_of_core_eq (regrouped.core id inside)
    by_cases isText : ∃ content, (document.node id).kind = .text content
    · obtain ⟨content, isText⟩ := isText
      rw [textContent, textContent, regrouped.sound.tree_eq, sound.tree_eq, Tree.text, Tree.text,
        kind, isText]
    · have inner := not_exists.mp isText
      change result.gauged .visible id = document.gauged .visible id
      rw [sound.gauged_visible inner, regrouped.sound.gauged_visible (kind ▸ inner), visible]
  outside child member noParagraph solid := by
    rcases regrouped.solid_or_content member noParagraph with ⟨found, _⟩ | ⟨_, _, _, _, loose⟩
    · refine regrouped.mem_children_iff.mpr ⟨⟨_, found, rfl⟩, keepsPart_iff.mpr fun level => ?_⟩
      exact absurd ((regrouped.level_eq sound member).symm.trans level) noParagraph
    · exact absurd (.inr solid) loose
  inside child member noParagraph loose shown := by
    rcases regrouped.solid_or_content member noParagraph with
      ⟨_, solid⟩ | ⟨par, content, found, contains, _⟩
    · exact absurd (solid.resolve_left fun full => noParagraph full.1) loose
    · obtain ⟨isChild, listed⟩ := regrouped.mem_paragraph sound inline found contains shown
      exact ⟨par, isChild, regrouped.level_paragraph found, listed⟩
  order := regrouped.order sound inline
  stable := regrouped.stable sound inside

end Regrouped

/-- Regrouping the children of a node into paragraphs, if it is forced or there is a
paragraph among them: what the children are afterwards, that the visible text is kept, that
what is no white space is kept in its order, outside of paragraphs or in one as its kind
asks, and that it is done once and for all.  Otherwise nothing changes. -/
theorem regrouped_children (consistent : document.Consistent)
    (acyclic : ∀ node,
      ¬Relation.TransGen (fun child above => document.parent? child = some above) node node)
    (inline : document.TextsInline) (inside : id < document.size) (force : Bool) :
    ((force = true ∨ ∃ child ∈ document.children id, (document.node child).level = Level.par) →
        document.Paragraphed id (document.paragraphs id force)) ∧
      (¬(force = true ∨ ∃ child ∈ document.children id,
          (document.node child).level = Level.par) →
        document.paragraphs id force = document) := by
  have sound := Sound.of_acyclic consistent acyclic
  refine ⟨fun asked => ?_, paragraphs_of_not_asked⟩
  obtain ⟨parts, regrouped⟩ := sound.regrouped inside asked
  exact regrouped.paragraphed sound inline inside
    (sound.within_paragraphs ignoresParagraphs_visible inline inside force)

/-- Where only nodes without children are placed anywhere, no node comes to lie below itself. -/
theorem Sound.run_leaves {operations : List Operation}
    (valid : Throughout Operation.Valid .empty operations)
    (leaves : Throughout (fun document operation => ∀ place ∈ operation.placed document,
      document.children place.1 = [] ∧ place.1 ≠ place.2) .empty operations) :
    (Document.empty.run operations).Sound := by
  refine Sound.empty.run valid (leaves.mono ?_)
  intro document operation isLeaf place member
  exact Sound.not_reaches_of_childless (isLeaf place member).1 (isLeaf place member).2

/-- A text is put into a new paragraph, a section stays outside, white space behind it is
dropped, and another text is put into the paragraph in front of it.  In the section there
is nothing to regroup. -/
theorem regrouped_children_section :
    let operations : List Operation :=
      [.createText "a", .createElement "section" Level.mainSection .plain, .createText " ",
        .createElement "par" Level.par .plain, .createText "b", .append 0 1, .append 0 2,
        .append 0 3, .append 0 4, .append 0 5]
    let document := Document.empty.run operations
    let result := document.paragraphs 0 false
    (result.children 0, result.children 6, result.children 4) = ([6, 2, 4], [1], [5]) ∧
      document.Paragraphed 0 result ∧ document.paragraphs 2 false = document := by
  intro operations document result
  have sound : document.Sound := Sound.run_leaves (by decide +kernel) (by decide +kernel)
  have inline : document.TextsInline := TextsInline.empty.run operations
  refine ⟨by decide +kernel, ?_, ?_⟩
  · apply (regrouped_children sound.consistent sound.acyclic inline (by decide +kernel) false).1
    exact .inr ⟨4, by decide +kernel, by decide +kernel⟩
  · apply (regrouped_children sound.consistent sound.acyclic inline (by decide +kernel) false).2
    decide +kernel

/-- A text of the level of paragraphs is filled like an empty paragraph.  A text does not show its
children, so that the text behind it is lost. -/
theorem regrouped_children_textAsParagraph :
    let flat := Document.empty.run [.createText "a", .createText "b", .append 0 1, .append 0 2]
    let raise (node : Node) : Node := { node with level := Level.par }
    let document := flat.modify 1 raise
    let result := document.paragraphs 0 true
    document.Consistent ∧
      (∀ node, ¬Relation.TransGen (fun child above => document.parent? child = some above)
        node node) ∧
      document.textContent 0 = "ab" ∧ result.textContent 0 = "a" ∧
      ¬document.Paragraphed 0 result := by
  intro flat raise document result
  have sound : flat.Sound := Sound.run_leaves (by decide +kernel) (by decide +kernel)
  have sameParents : ∀ id, document.parent? id = flat.parent? id :=
    parent?_modify raise (fun _ => rfl) flat 1
  have sameChildren : ∀ id, document.children id = flat.children id :=
    children_modify raise (fun _ => rfl) flat 1
  have shown : document.textContent 0 = "ab" ∧ result.textContent 0 = "a" := by decide +kernel
  refine ⟨sound.consistent.of_same_links sameParents sameChildren ?_, ?_, shown.1, shown.2, ?_⟩
  · intro id _ whole
    rw [node_modify]
    split <;> exact whole
  · intro node
    simp only [sameParents]
    exact sound.acyclic node
  · intro regrouped
    have same := regrouped.text
    rw [shown.1, shown.2] at same
    revert same
    decide +kernel

end TexTree.Document
