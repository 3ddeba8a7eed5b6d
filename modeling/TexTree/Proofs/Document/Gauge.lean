import TexTree.Proofs.Document.Extension

/-!
# What is gathered from the trees of a document

The text, the source and the outline of a document are all gathered from its tree
in the same manner: each tree contributes a list, a text contributes what it
spells, and joining two texts joins their contributions.  A `Tally` is such a way to
gather lists.  It is a `Gauge` if an element makes something of the contributions of
its children that only depends on its form.

For any tally, this module says what becomes of the contribution of a node and of
its children (`Document.within`) when something is appended to the node, and that
it stays as it is while the document grows elsewhere.
-/

namespace TexTree

/-- The parts of an element that its source is written from. -/
structure Form where
  name : String
  mode : Mode
  contentForm : ContentForm
  argumentSource : String
  deriving DecidableEq, Repr

/-- The form of a node. -/
def Node.form (node : Node) : Form :=
  ⟨node.name, node.mode, node.contentForm, node.argumentSource⟩

/-- The essence determines the form. -/
theorem Node.form_eq_of_essence_eq {left right : Node} (equal : left.essence = right.essence) :
    left.form = right.form := by
  have same := congrArg Node.form equal
  exact same

/-- A way to gather a list from a tree. -/
structure Tally (β : Type) where
  of : Tree → List β
  /-- What a text contributes. -/
  spelled : String → List β
  bare : ∀ tree, of tree.bare = of tree
  text : ∀ id data children content, data.kind = .text content →
    of (.node id data children) = spelled content
  append : ∀ first second, spelled (first ++ second) = spelled first ++ spelled second

/-- A way to gather a list from a tree that sees only the forms of its elements. -/
structure Gauge (β : Type) extends Tally β where
  /-- What an element of a form contributes whose children contribute a list. -/
  element : Form → List β → List β
  composed : ∀ id data children, data.kind = .element →
    of (.node id data children) = element data.form (children.flatMap of)

instance {β : Type} : Coe (Gauge β) (Tally β) := ⟨Gauge.toTally⟩

namespace Document

variable {β : Type} {tally : Tally β} {gauge : Gauge β} {document other : Document}
  {parent child id : NodeId}

/-- What a node contributes. -/
def gauged (tally : Tally β) (document : Document) (id : NodeId) : List β :=
  tally.of (document.tree id)

/-- What the children of a node contribute. -/
def within (tally : Tally β) (document : Document) (id : NodeId) : List β :=
  (document.children id).flatMap (document.gauged tally)

theorem within_of_childless (childless : document.children id = []) :
    document.within tally id = [] := by
  rw [within, childless, List.flatMap_nil]

/-- A text contributes what it spells. -/
theorem Sound.gauged_text (sound : document.Sound) {content : String}
    (isText : (document.node id).kind = .text content) :
    document.gauged tally id = tally.spelled content := by
  rw [gauged, sound.tree_eq]
  exact tally.text _ _ _ _ isText

/-- An element contributes what its form makes of the contributions of its children. -/
theorem Sound.gauged_element (sound : document.Sound)
    (isElement : (document.node id).kind = .element) :
    document.gauged gauge id =
      gauge.element (document.node id).form (document.within gauge id) := by
  rw [gauged, sound.tree_eq, gauge.composed _ _ _ isElement, List.flatMap_map]
  rfl

/-- Documents that agree below a node give the same contribution. -/
theorem gauged_congr (sound : document.Sound) (otherSound : other.Sound)
    (same : ∀ below, document.Reaches id below →
      other.children below = document.children below ∧
        (other.node below).essence = (document.node below).essence) :
    other.gauged tally id = document.gauged tally id := by
  have equal := bare_tree_congr sound otherSound same
  rw [gauged, gauged, ← tally.bare, equal, tally.bare]

/-- The same for the children, whatever becomes of the node itself. -/
theorem flatMap_gauged_congr (sound : document.Sound) (otherSound : other.Sound)
    (same : ∀ child ∈ document.children id, ∀ below, document.Reaches child below →
      other.children below = document.children below ∧
        (other.node below).essence = (document.node below).essence) :
    (document.children id).flatMap (other.gauged tally) = document.within tally id := by
  apply List.flatMap_congr
  intro child member
  exact gauged_congr sound otherSound (same child member)

/-! ## Growth elsewhere -/

namespace Extends

variable {own : Option NodeId} {before after : Document} {top : NodeId}

/-- What lies below a node without a parent is not touched by work on another one. -/
theorem untouched_of_reaches (sound : before.Sound)
    (apart : ∀ node, own = some node → before.parent? node = none ∧
      before.parent? top = none ∧ node ≠ top)
    {below : NodeId} (path : before.Reaches top below) : before.Untouched own below := by
  intro node isNode
  obtain ⟨free, topFree, different⟩ := apart node isNode
  have unreached : ¬before.Reaches top node := sound.not_reaches free (Ne.symm different)
  refine ⟨?_, ?_⟩
  · intro equal
    exact unreached (equal ▸ path)
  · intro linked
    rcases Relation.ReflTransGen.cases_tail path with equal | ⟨middle, higher, member⟩
    · rw [equal, topFree] at linked
      cases linked
    · rw [(sound.linked middle below).mpr member] at linked
      exact unreached (Option.some.inj linked ▸ higher)

theorem within (ext : Extends own before after) (sound : before.Sound)
    (laterSound : after.Sound) (inside : top < before.size)
    (apart : ∀ node, own = some node → before.parent? node = none ∧
      before.parent? top = none ∧ node ≠ top) :
    after.within tally top = before.within tally top := by
  have untouched := fun below (path : before.Reaches top below) =>
    untouched_of_reaches sound apart path
  rw [Document.within, ext.children top inside (untouched top Relation.ReflTransGen.refl)]
  apply flatMap_gauged_congr sound laterSound
  intro child member below path
  have reached : before.Reaches top below := Relation.ReflTransGen.head member path
  have old : below < before.size := by
    rcases Relation.ReflTransGen.cases_tail path with equal | ⟨_, _, listed⟩
    · exact equal ▸ sound.lt_size member
    · exact sound.lt_size listed
  exact ⟨ext.children below old (untouched below reached),
    ext.essence below old (untouched below reached)⟩

end Extends

/-- A change of a node that keeps its links does not concern its children. -/
theorem Sound.within_modify (sound : document.Sound) {change : Node → Node}
    (parent : ∀ node, (change node).parent = node.parent)
    (children : ∀ node, (change node).children = node.children)
    (kind : ∀ node, (change node).kind = node.kind) :
    (document.modify id change).within tally id = document.within tally id := by
  have links := children_modify change children document id
  have later : (document.modify id change).Sound := by
    apply sound.of_same_links (parent?_modify change parent document id) links
    intro other whole
    rw [node_modify]
    split
    · rw [kind]
      exact whole
    · exact whole
  rw [within, links]
  apply flatMap_gauged_congr sound later
  intro child member below path
  refine ⟨links below, ?_⟩
  rw [node_modify_of_ne]
  intro equal
  exact sound.not_reaches_of_mem member (equal ▸ path)

/-! ## Appending -/

/-- What lies below a child of a node does not change when something is appended to
the node. -/
theorem Sound.flatMap_gauged_attach (sound : document.Sound) {parts : List NodeId}
    (inside : parent < document.size) (childFree : document.parent? child = none)
    (later : (document.attach parent child).Sound)
    (below : ∀ part ∈ parts, ¬document.Reaches part parent) :
    parts.flatMap ((document.attach parent child).gauged tally) =
      parts.flatMap (document.gauged tally) := by
  apply List.flatMap_congr
  intro part member
  apply gauged_congr sound later
  intro lower path
  have different : lower ≠ parent := by
    intro equal
    exact below part member (equal ▸ path)
  refine ⟨?_, Node.essence_eq_of_core_eq (core_attach document parent child lower)⟩
  rw [children_attach inside, detach_of_parent?_eq_none childFree, if_neg different,
    List.append_nil]

/-- A node that is appended contributes behind the children. -/
theorem Sound.within_append (sound : document.Sound) (inside : parent < document.size)
    (free : document.parent? parent = none) (childInside : child < document.size)
    (childFree : document.parent? child = none)
    (whole : (document.node child).kind ≠ .fragment) (different : child ≠ parent) :
    (document.append parent child).within tally parent =
      document.within tally parent ++ document.gauged tally child := by
  have apart := sound.not_reaches free different
  have later := sound.attach inside childInside whole apart
  rw [append_of_not_fragment whole]
  have children : (document.attach parent child).children parent =
      document.children parent ++ [child] := by
    rw [children_attach inside, detach_of_parent?_eq_none childFree, if_pos rfl]
  rw [within, children, sound.flatMap_gauged_attach inside childFree later,
    List.flatMap_append, List.flatMap_singleton]
  · rfl
  · intro part member
    rcases List.mem_append.mp member with old | new
    · exact sound.not_reaches_of_mem old
    · rw [List.mem_singleton.mp new]
      exact apart

/-- A node that is appended elsewhere makes no difference. -/
theorem Sound.within_append_elsewhere (sound : document.Sound) (inside : parent < document.size)
    (free : document.parent? parent = none) (childInside : child < document.size)
    (childFree : document.parent? child = none)
    (whole : (document.node child).kind ≠ .fragment) (different : child ≠ parent)
    (elsewhere : id ≠ parent) :
    (document.append parent child).within tally id = document.within tally id := by
  have apart := sound.not_reaches free different
  have later := sound.attach inside childInside whole apart
  rw [append_of_not_fragment whole, within, children_attach inside,
    detach_of_parent?_eq_none childFree, if_neg elsewhere, List.append_nil,
    sound.flatMap_gauged_attach inside childFree later]
  · rfl
  · intro part member
    apply sound.not_reaches free
    rintro rfl
    exact sound.not_mem_children free id member

/-- Dissolving a fragment hands on what it contributes. -/
theorem Sound.within_append_fragment (sound : document.Sound) (inside : parent < document.size)
    (free : document.parent? parent = none)
    (isFragment : (document.node child).kind = .fragment) (different : child ≠ parent)
    (childFree : document.parent? child = none) :
    (document.append parent child).within tally parent =
      document.within tally parent ++ document.within tally child := by
  have apart : ∀ part ∈ document.children child, ¬document.Reaches part parent := by
    intro part member
    apply sound.not_reaches free
    intro equal
    exact sound.not_mem_children free child (equal ▸ member)
  have later := sound.append_fragment inside isFragment apart
  have children := sound.consistent.children_append_fragment inside isFragment
  have unchanged : ∀ part, ¬document.Reaches part parent → ¬document.Reaches part child →
      (document.append parent child).gauged tally part = document.gauged tally part := by
    intro part notParent notChild
    apply gauged_congr sound later
    intro below path
    have belowParent : below ≠ parent := fun equal => notParent (equal ▸ path)
    have belowChild : below ≠ child := fun equal => notChild (equal ▸ path)
    refine ⟨?_, Node.essence_eq_of_core_eq (core_append document parent child below)⟩
    rw [children, if_neg belowChild, if_neg belowParent, List.append_nil]
  rw [within, children, if_neg (Ne.symm different), if_pos rfl, List.flatMap_append]
  congr 1
  · apply List.flatMap_congr
    intro part member
    apply unchanged part (sound.not_reaches_of_mem member)
    apply sound.not_reaches childFree
    intro equal
    exact sound.not_mem_children childFree parent (equal ▸ member)
  · apply List.flatMap_congr
    intro part member
    exact unchanged part (apart part member) (sound.not_reaches_of_mem member)

/-- The last child lies below no other child. -/
theorem Sound.not_reaches_last (sound : document.Sound) {before : List NodeId} {last : NodeId}
    (split : document.children parent = before ++ [last]) {part : NodeId} (listed : part ∈ before) :
    ¬document.Reaches part last := by
  intro path
  have nodup := sound.nodup parent
  have member : last ∈ document.children parent := by simp [split]
  have isChild : part ∈ document.children parent := by simp [split, listed]
  rcases Relation.ReflTransGen.cases_tail path with same | ⟨middle, higher, lists⟩
  · rw [split, same, List.nodup_append] at nodup
    exact nodup.2.2 part listed part List.mem_cons_self rfl
  · have above : middle = parent := by
      by_contra differs
      exact sound.not_mem_of_mem member differs lists
    exact sound.not_reaches_of_mem isChild (above ▸ higher)

/-- A text at the end of a node can go on. -/
theorem Sound.within_extendText (sound : document.Sound) {last : NodeId} {start : String}
    (isLast : (document.children parent).getLast? = some last)
    (isText : (document.node last).kind = .text start) (content : String) :
    (document.modify last fun node => { node with kind := .text (start ++ content) }).within tally
      parent = document.within tally parent ++ tally.spelled content := by
  generalize isChange : (fun node : Node => { node with kind := .text (start ++ content) }) = change
  have kind : ∀ node, (change node).kind = .text (start ++ content) := by simp [← isChange]
  have links := children_modify change (by simp [← isChange]) document last
  have inside := sound.lt_size (List.mem_of_getLast? isLast)
  have later : (document.modify last change).Sound := by
    apply sound.of_same_links (parent?_modify change (by simp [← isChange]) document last) links
    intro other whole
    rw [node_modify]
    split
    · simp [kind]
    · exact whole
  obtain ⟨before, split⟩ := List.getLast?_eq_some_iff.mp isLast
  have isNew : ((document.modify last change).node last).kind = .text (start ++ content) := by
    rw [node_modify_self change inside, kind]
  rw [within, within, links, split, List.flatMap_append, List.flatMap_append,
    List.flatMap_singleton, List.flatMap_singleton, later.gauged_text isNew, tally.append,
    sound.gauged_text isText, List.append_assoc]
  congr 1
  apply List.flatMap_congr
  intro part listed
  apply gauged_congr sound later
  intro below path
  refine ⟨links below, ?_⟩
  rw [node_modify_of_ne]
  rintro rfl
  exact sound.not_reaches_last split listed path

/-- Text that is appended contributes what it spells. -/
theorem Sound.within_appendText (sound : document.Sound) (inside : parent < document.size)
    (free : document.parent? parent = none) (content : String) :
    (document.appendText parent content).within tally parent =
      document.within tally parent ++ tally.spelled content := by
  rcases document.appendText_cases parent content with
    ⟨last, start, isLast, isText, equal⟩ | ⟨_, equal⟩
  · rw [equal]
    exact sound.within_extendText isLast isText content
  · generalize isNode : textNode content = node at equal
    have isText : node.kind = .text content := by simp [← isNode, textNode]
    have childless : node.children = [] := by simp [← isNode, textNode]
    have parentless : node.parent = none := by simp [← isNode, textNode]
    have created := sound.create childless parentless
    have newKind : ((document.create node).2.node document.size).kind = .text content := by
      rw [node_create_self, isText]
    have whole : ((document.create node).2.node document.size).kind ≠ .fragment := by
      simp [isText]
    have ext : Extends none document (document.create node).2 := Extends.create (.refl _) _
    rw [equal, ← append_of_not_fragment whole, created.within_append _ _ _ _ whole,
      ext.within sound created inside (by simp), created.gauged_text newKind]
    · exact Nat.ne_of_gt inside
    · rw [size_create]
      exact Nat.lt_succ_of_lt inside
    · rw [parent?_create parentless]
      exact free
    · rw [size_create]
      exact Nat.lt_succ_self _
    · rw [parent?_create parentless, parent?_of_size_le (Nat.le_refl _)]

/-- Text is appended to a node as a child, so that the node stays what it is. -/
theorem Sound.kind_appendText (sound : document.Sound) (inside : parent < document.size)
    (content : String) :
    ((document.appendText parent content).node parent).kind = (document.node parent).kind := by
  rcases document.appendText_cases parent content with
    ⟨last, start, isLast, isText, equal⟩ | ⟨_, equal⟩
  · have different : last ≠ parent := sound.ne_of_mem (List.mem_of_getLast? isLast)
    rw [equal, node_modify_of_ne _ different]
  · rw [equal, Node.kind_eq_of_core_eq (core_attach _ _ _ _), node_create_of_lt _ inside]

end Document

end TexTree
