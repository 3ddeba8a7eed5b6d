import TexTree.Proofs.Document.Made
import TexTree.Proofs.Engine.Outcome

/-!
# Building nodes

An engine that builds the next node starts with a document that it only extends:
it adds new nodes, fills them and appends them to each other, but it leaves all
old nodes alone (`Building`).  The node itself is under construction (`Document.Made`).

This module goes through the steps by which elements, groups, formulas and
verbatim text become nodes, given that the interpreter produces items and digests
nodes in the same manner (`Interpreter.Builds`).
-/

namespace TexTree

namespace Engine

/-- An engine between two steps of building nodes. -/
structure Steady (engine : Engine) : Prop where
  sane : engine.Sane
  orderly : engine.document.Orderly
  buffer : engine.buffer = []

/-- An engine came from another one by building nodes. -/
structure Grown (before after : Engine) : Prop where
  steady : after.Steady
  ext : Document.Extends none before.document after.document

variable {start before engine after : Engine}

theorem Steady.refl (steady : engine.Steady) : engine.Grown engine := ⟨steady, .refl _⟩

theorem Grown.trans (first : before.Grown engine) (steady : before.Steady)
    (second : engine.Grown after) : before.Grown after :=
  ⟨second.steady, first.ext.trans steady.orderly.sound second.ext (by simp)⟩

theorem Steady.quiet (steady : engine.Steady) (quiet : engine.Quiet after) :
    engine.Grown after := by
  refine ⟨⟨quiet.sane steady.sane, ?_, quiet.buffer.trans steady.buffer⟩, ?_⟩
  · rw [quiet.document]
    exact steady.orderly
  · rw [quiet.document]
    exact .refl _

/-- A change of the document alone. -/
theorem Steady.setDocument (steady : engine.Steady) {document : Document}
    (orderly : document.Orderly) (ext : Document.Extends none engine.document document) :
    engine.Grown { engine with document } :=
  ⟨⟨⟨steady.sane.scopes, steady.sane.libraries⟩, orderly, steady.buffer⟩, ext⟩

/-- A change that does not concern the document, the buffer and the elements. -/
theorem Steady.same (steady : engine.Steady) (document : after.document = engine.document)
    (scopes : engine.scopes.Regular → after.scopes.Regular)
    (libraries : after.libraries = engine.libraries) (buffer : after.buffer = engine.buffer) :
    engine.Grown after := by
  refine ⟨⟨⟨scopes steady.sane.scopes, ?_⟩, ?_, buffer.trans steady.buffer⟩, ?_⟩
  · rw [libraries]
    exact steady.sane.libraries
  · rw [document]
    exact steady.orderly
  · rw [document]
    exact .refl _

/-- Changes of attributes, labels, numbers and positions can be made anywhere. -/
theorem Steady.modify (steady : engine.Steady) (id : NodeId) {change : Node → Node}
    (parent : ∀ node, (change node).parent = node.parent)
    (children : ∀ node, (change node).children = node.children)
    (essence : ∀ node, (change node).essence = node.essence) :
    engine.Grown { engine with document := engine.document.modify id change } := by
  apply steady.setDocument
  · apply steady.orderly.modify id parent children
    · intro node
      exact Node.traits_eq_of_essence_eq (essence node)
    · rw [Node.kind_eq_of_essence_eq (essence _)]
    · rw [Node.kind_eq_of_essence_eq (essence _)]
      exact fun element => element
  · exact Document.Extends.modify (.refl _) id parent children essence

/-- A new node is being made since the given engine. -/
structure Making (start : Engine) (node : NodeId) (digest : Digest) (level : Level)
    (engine : Engine) : Prop where
  begun : start.Steady
  grown : start.Grown engine
  made : Document.Made start.document engine.document node
  hasDigest : (engine.document.node node).digest = digest
  hasLevel : (engine.document.node node).level = level

namespace Making

variable {node : NodeId} {digest : Digest} {level : Level}

theorem steady (making : Making start node digest level engine) : engine.Steady :=
  making.grown.steady

/-- Building other nodes does not disturb a node that is being made. -/
theorem grow (making : Making start node digest level engine) (grown : engine.Grown after) :
    Making start node digest level after := by
  have traits := grown.ext.traits node making.made.inside
  constructor
  · exact making.begun
  · exact making.grown.trans making.begun grown
  · exact making.made.extend making.steady.orderly.sound grown.ext
  · rw [Node.digest_eq_of_traits_eq traits]
    exact making.hasDigest
  · rw [Node.level_eq_of_traits_eq traits]
    exact making.hasLevel

/-- What is new since an engine is also new since an earlier one. -/
theorem since (making : Making before node digest level engine) (steady : start.Steady)
    (grown : start.Grown before) : Making start node digest level engine := by
  have made := making.made
  refine ⟨steady, grown.trans steady making.grown, ?_, making.hasDigest, making.hasLevel⟩
  exact ⟨Nat.le_trans grown.ext.size_le made.new, made.inside, made.free, made.whole, made.plain,
    made.below⟩

/-- The node itself may be changed as long as it keeps its level and its rule of
digestion. -/
theorem modify (making : Making start node digest level engine) {change : Node → Node}
    (parent : ∀ inner, (change inner).parent = inner.parent)
    (children : ∀ inner, (change inner).children = inner.children)
    (kind : ∀ inner, (change inner).kind = inner.kind)
    (digests : ∀ inner, (change inner).digest = inner.digest)
    (levels : ∀ inner, (change inner).level = inner.level) :
    Making start node digest level
      { engine with document := engine.document.modify node change } := by
  have made := making.made
  have orderly := making.steady.orderly
  have self := Document.node_modify_self change made.inside
  have admits : ∀ inner next, (change inner).Admits next ↔ inner.Admits next := by
    intro inner next
    simp only [Node.Admits, digests, levels]
  have proper : (change (engine.document.node node)).Proper := by
    have before := orderly.proper node
    constructor
    · rw [digests, levels]
      exact before.sectioning
    · rw [digests, levels]
      exact before.paragraph
    · rw [kind, digests, levels]
      exact before.fragment
    · rw [kind, levels]
      exact before.element
  constructor
  · exact making.begun
  · refine ⟨⟨⟨making.steady.sane.scopes, making.steady.sane.libraries⟩, ?_, ?_⟩, ?_⟩
    · apply orderly.redefine made.inside made.free parent children
      · rw [kind]
        exact fun fragment => fragment
      · exact proper
      · intro child member
        obtain ⟨opens, isAdmitted⟩ := made.plain child member
        exact .inr ⟨opens, (admits _ _).mpr isAdmitted⟩
      · exact made.below
    · exact making.steady.buffer
    · exact making.grown.ext.modify_new made.new change
  · exact made.modify parent children kind orderly.sound admits
  · rw [self, digests]
    exact making.hasDigest
  · rw [self, levels]
    exact making.hasLevel

/-- The rule of digestion is settled before the node has got children. -/
theorem define (making : Making start node digest level engine)
    (childless : engine.document.children node = []) {change : Node → Node}
    (parent : ∀ inner, (change inner).parent = inner.parent)
    (children : ∀ inner, (change inner).children = inner.children)
    (kind : ∀ inner, (change inner).kind = inner.kind) {digest' : Digest}
    (digests : ∀ inner, (change inner).digest = digest')
    (levels : ∀ inner, (change inner).level = inner.level)
    (sectioning : digest' = .sectioning → level < Level.endSections)
    (paragraph : level = Level.par → digest' = .nothing ∨ digest' = .environment) :
    Making start node digest' level
      { engine with document := engine.document.modify node change } := by
  have made := making.made
  have orderly := making.steady.orderly
  have self := Document.node_modify_self change made.inside
  constructor
  · exact making.begun
  · refine ⟨⟨⟨making.steady.sane.scopes, making.steady.sane.libraries⟩, ?_, ?_⟩, ?_⟩
    · apply orderly.redefine made.inside made.free parent children
      · rw [kind]
        exact fun fragment => fragment
      · constructor
        · rw [digests, levels, making.hasLevel]
          exact sectioning
        · rw [digests, levels, making.hasLevel]
          exact paragraph
        · rw [kind]
          exact fun fragment => absurd fragment made.whole
        · rw [kind, levels]
          exact (orderly.proper node).element
      · simp [childless]
      · simp [childless]
    · exact making.steady.buffer
    · exact making.grown.ext.modify_new made.new change
  · exact made.define parent children kind childless
  · rw [self, digests]
  · rw [self, levels]
    exact making.hasLevel

/-- A new fragment is dissolved in the node. -/
theorem appendFragment (making : Making start node digest level engine) {fragment : NodeId}
    (madeFragment : Document.MadeFragment start.document engine.document fragment)
    (admits : ∀ next, (engine.document.node node).Admits next) :
    Making start node digest level
      { engine with document := engine.document.append node fragment } := by
  have made := making.made
  have orderly := making.steady.orderly
  have isFragment := madeFragment.fragment
  have traits := Node.traits_eq_of_core_eq
    (Document.core_append engine.document node fragment node)
  constructor
  · exact making.begun
  · refine ⟨⟨⟨making.steady.sane.scopes, making.steady.sane.libraries⟩, ?_, ?_⟩, ?_⟩
    · exact orderly.append_fragment made.inside made.free isFragment admits
    · exact making.steady.buffer
    · exact making.grown.ext.append_fragment orderly.sound making.begun.orderly.sound made.new
        made.inside madeFragment.new isFragment
  · exact made.appendFragment orderly madeFragment admits
  · rw [Node.digest_eq_of_traits_eq traits]
    exact making.hasDigest
  · rw [Node.level_eq_of_traits_eq traits]
    exact making.hasLevel

/-- Text is appended to the node. -/
theorem appendText (making : Making start node digest level engine) (content : String) :
    Making start node digest level
      { engine with document := engine.document.appendText node content } := by
  have made := making.made
  have orderly := making.steady.orderly
  have traits := (Document.textAppended made.inside content).traits node made.inside
  constructor
  · exact making.begun
  · refine ⟨⟨⟨making.steady.sane.scopes, making.steady.sane.libraries⟩, ?_, ?_⟩, ?_⟩
    · exact orderly.appendText made.inside made.free content
    · exact making.steady.buffer
    · exact making.grown.ext.appendText orderly.sound making.begun.orderly.sound (.inr made.new)
        made.inside content
  · exact made.appendText orderly content
  · rw [Node.digest_eq_of_traits_eq traits]
    exact making.hasDigest
  · rw [Node.level_eq_of_traits_eq traits]
    exact making.hasLevel

end Making

/-- A new element. -/
theorem Steady.make (steady : engine.Steady) (name : String) (level : Level) (mode : Mode) :
    Making engine engine.document.size .nothing level
      { engine with
        document := (engine.document.create (Document.element name level mode)).2 } := by
  have proper : (Document.element name level mode).Proper := by
    constructor <;> simp [Document.element]
  have childless : (engine.document.create (Document.element name level mode)).2.children
      engine.document.size = [] := by
    rw [Document.children_create rfl, Document.children_of_size_le (Nat.le_refl _)]
  constructor
  · exact steady
  · exact steady.setDocument (steady.orderly.create rfl rfl proper)
      (Document.Extends.create (.refl _) _)
  · constructor
    · exact Nat.le_refl _
    · simp
    · rw [Document.parent?_create rfl, Document.parent?_of_size_le (Nat.le_refl _)]
    · simp [Document.element]
    · simp [childless]
    · simp [childless]
  · simp [Document.element]
  · simp [Document.element]

/-! ## Computations that build nodes -/

/-- A computation that builds new nodes and leaves the old ones alone. -/
def Growing {α : Type} (computation : TexM α) : Prop :=
  ∀ engine : Engine, engine.Steady → Sat computation engine fun _ after => engine.Grown after

namespace Growing

variable {α β : Type}

theorem pure (value : α) : Growing (pure value : TexM α) :=
  fun _ steady => sat_pure.mpr steady.refl

theorem fail (fault : Fault) : Growing (fail fault : TexM α) :=
  fun _ steady => sat_fail.mpr steady.sane

theorem bind {first : TexM α} {second : α → TexM β} (growing : Growing first)
    (next : ∀ value, Growing (second value)) : Growing (first >>= second) := by
  intro engine steady
  refine (growing engine steady).bind ?_
  intro value middle grown
  refine (next value middle grown.steady).mono ?_
  intro _ after later
  exact grown.trans steady later

theorem quiet {computation : TexM α}
    (quiet : ∀ before : Engine, Retains before.Quiet computation) :
    Growing computation := by
  intro engine steady
  refine (Sat.quiet steady.sane (quiet engine)).mono ?_
  intro _ after isQuiet
  exact steady.quiet isQuiet

theorem get : Growing (get : TexM Engine) := fun _ steady => sat_get.mpr steady.refl

theorem nodeOf (id : NodeId) : Growing (nodeOf id) :=
  fun _ steady => sat_nodeOf.mpr steady.refl

/-- A change that keeps the document, the buffer and the elements. -/
theorem modify {change : Engine → Engine}
    (document : ∀ engine, (change engine).document = engine.document)
    (scopes : ∀ engine, engine.scopes.Regular → (change engine).scopes.Regular)
    (libraries : ∀ engine, (change engine).libraries = engine.libraries)
    (buffer : ∀ engine, (change engine).buffer = engine.buffer) :
    Growing (modify change) :=
  fun engine steady => sat_modify.mpr
    (steady.same (document engine) (scopes engine) (libraries engine) (buffer engine))

/-- A change of a node that keeps its links and its essence. -/
theorem modifyNode (id : NodeId) {change : Node → Node}
    (parent : ∀ node, (change node).parent = node.parent)
    (children : ∀ node, (change node).children = node.children)
    (essence : ∀ node, (change node).essence = node.essence) : Growing (modifyNode id change) :=
  fun _ steady => sat_modify.mpr (steady.modify id parent children essence)

theorem setAttribute (id : NodeId) (name : String) (value : Value) :
    Growing (setAttribute id name value) :=
  Growing.modifyNode id (fun _ => rfl) (fun _ => rfl) fun _ => rfl

theorem mapM {items : List α} {step : α → TexM β} (each : ∀ item ∈ items, Growing (step item)) :
    Growing (items.mapM step) := by
  induction items with
  | nil => exact pure []
  | cons item rest ih =>
      rw [List.mapM_cons]
      apply bind (each item List.mem_cons_self)
      intro value
      apply bind (ih fun other member => each other (List.mem_cons_of_mem item member))
      intro values
      exact pure _

theorem forM {items : List α} {step : α → TexM PUnit}
    (each : ∀ item ∈ items, Growing (step item)) : Growing (items.forM step) := by
  induction items with
  | nil => exact pure _
  | cons item rest ih =>
      apply bind (each item List.mem_cons_self)
      intro _
      exact ih fun other member => each other (List.mem_cons_of_mem item member)

theorem forIn {items : List α} {step : α → TexM β}
    (each : ∀ item ∈ items, Growing (step item)) :
    Growing (forIn items PUnit.unit fun item _ => do
      let _ ← step item
      Pure.pure (ForInStep.yield PUnit.unit)) := by
  induction items with
  | nil => exact pure _
  | cons item rest ih =>
      rw [List.forIn_cons]
      refine bind (bind (each item List.mem_cons_self) fun _ => pure _) ?_
      intro outcome
      cases outcome with
      | done value => exact pure value
      | yield value => exact ih fun other member => each other (List.mem_cons_of_mem item member)

end Growing

/-- A computation that works on a node under construction. -/
def Shaping {α : Type} (node : NodeId) (digest : Digest) (level : Level)
    (computation : TexM α) : Prop :=
  ∀ start engine : Engine, Making start node digest level engine →
    Sat computation engine fun _ after => Making start node digest level after

section Shaping

variable {α β : Type} {node : NodeId} {digest : Digest} {level : Level}

theorem Growing.shaping {computation : TexM α} (growing : Growing computation) :
    Shaping node digest level computation := by
  intro start engine making
  refine (growing engine making.steady).mono ?_
  intro _ after grown
  exact making.grow grown

theorem Shaping.bind {first : TexM α} {second : α → TexM β}
    (shaping : Shaping node digest level first)
    (next : ∀ value, Shaping node digest level (second value)) :
    Shaping node digest level (first >>= second) := by
  intro start engine making
  refine (shaping start engine making).bind ?_
  intro value middle later
  exact next value start middle later

theorem Shaping.modifyNode {change : Node → Node}
    (parent : ∀ inner, (change inner).parent = inner.parent)
    (children : ∀ inner, (change inner).children = inner.children)
    (kind : ∀ inner, (change inner).kind = inner.kind)
    (digests : ∀ inner, (change inner).digest = inner.digest)
    (levels : ∀ inner, (change inner).level = inner.level) :
    Shaping node digest level (modifyNode node change) :=
  fun _ _ making => sat_modify.mpr (making.modify parent children kind digests levels)

theorem Shaping.recordDepth : Shaping node digest level (recordDepth node) :=
  fun _ _ making => sat_modify.mpr
    (making.modify (fun _ => rfl) (fun _ => rfl) (fun _ => rfl) (fun _ => rfl) fun _ => rfl)

theorem Shaping.appendText (content : String) :
    Shaping node digest level (appendText node content) :=
  fun _ _ making => sat_modify.mpr (making.appendText content)

end Shaping

end Engine

end TexTree
