import TexTree.Proofs.Document.Nesting
import TexTree.Proofs.Document.Regrouping

/-!
# Regrouping keeps documents orderly

A paragraph suits the node that was regrouped, and what lies in it suits that node.  A node
that is ready stays so when something else is changed.
-/

namespace TexTree

namespace Document

namespace Orderly

variable {document : Document}

theorem isCloser_paragraphNode : paragraphNode.isCloser = false := by decide

/-- The nodes of a regrouped document are proper. -/
theorem proper_of_regrouped (orderly : document.Orderly) {id : NodeId} {result : Document}
    {parts : List Part} (regrouped : Regrouped document id result parts) (other : NodeId) :
    (result.node other).Proper := by
  by_cases old : other < document.size
  · have core := regrouped.core other old
    apply (orderly.proper other).congr (Node.traits_eq_of_core_eq core)
    · rw [Node.kind_eq_of_core_eq core]
      exact fun kind => kind
    · rw [Node.kind_eq_of_core_eq core]
      exact fun kind => kind
  · have outside := Nat.le_of_not_lt old
    by_cases new : other < result.size
    · have core := regrouped.fresh other outside new
      have proper : paragraphNode.Proper := by
        constructor <;> simp [paragraphNode, element]
      apply proper.congr (Node.traits_eq_of_core_eq core)
      · rw [Node.kind_eq_of_core_eq core]
        exact fun kind => kind
      · rw [Node.kind_eq_of_core_eq core]
        exact fun kind => kind
    · rw [node_of_size_le (Nat.le_of_not_lt new), ← node_of_size_le outside]
      exact orderly.proper other

/-- The parts suit the regrouped node. -/
theorem suits_of_regrouped (orderly : document.Orderly) {id : NodeId}
    (suits : ∀ child ∈ document.children id, document.Suits id child) {result : Document}
    {parts : List Part} (regrouped : Regrouped document id result parts) :
    ∀ child ∈ result.children id, result.Suits id child := by
  intro child member
  rw [regrouped.children_id, List.mem_filter, List.mem_map] at member
  obtain ⟨⟨part, found, rfl⟩, _⟩ := member
  by_cases old : part.id < document.size
  · have before := regrouped.mem_children_of_part found old
    have inside := lt_size_of_mem_children before
    unfold Suits
    rw [Node.suits_congr (Node.traits_eq_of_core_eq (regrouped.core id inside))
      (Node.traits_eq_of_core_eq (regrouped.core _ old))]
    exact suits part.id before
  · have core := regrouped.fresh part.id (Nat.le_of_not_lt old)
      (regrouped.part_lt_size orderly.sound found)
    have traits := Node.traits_eq_of_core_eq core
    refine (Node.suits_congr rfl traits).mpr (.inr ⟨isCloser_paragraphNode, ?_⟩)
    exact (orderly.proper_of_regrouped regrouped id).admits_of_deep (.inr rfl)

/-- Regrouping keeps a document orderly. -/
theorem of_regrouped (orderly : document.Orderly) {id : NodeId}
    (suits : ∀ child ∈ document.children id, document.Suits id child) {result : Document}
    {parts : List Part} (regrouped : Regrouped document id result parts) : result.Orderly := by
  have sound := orderly.sound
  have proper := orderly.proper_of_regrouped regrouped
  have traits : ∀ other, other < document.size →
      (result.node other).traits = (document.node other).traits :=
    fun other old => Node.traits_eq_of_core_eq (regrouped.core other old)
  refine ⟨regrouped.sound, proper, ?_⟩
  intro above below member
  by_cases isId : above = id
  · subst isId
    exact .inl (orderly.suits_of_regrouped suits regrouped below member)
  by_cases isParagraph : ∃ content, .paragraph above content ∈ parts
  · -- The content of a paragraph stood below the regrouped node before.
    obtain ⟨content, found⟩ := isParagraph
    obtain ⟨_, contains, _⟩ := regrouped.paragraphs above content found
    have level := regrouped.level_paragraph found
    rw [contains] at member
    have wasChild := regrouped.mem_children_of_content found member
    have belowOld := sound.lt_size wasChild
    have idOld := lt_size_of_mem_children wasChild
    rcases suits below wasChild with takes | ⟨opens, _⟩
    · refine .inr ⟨level, ?_⟩
      intro top linked
      rw [regrouped.eq_of_parent? sound found linked,
        Node.takes_congr (traits id idOld) (traits below belowOld)]
      exact takes
    · refine .inl (.inr ⟨?_, (proper above).admits_of_paragraph level _⟩)
      have same := congrArg Node.isCloser (traits below belowOld)
      exact same.trans opens
  · rw [regrouped.children above isId (fun content found => isParagraph ⟨content, found⟩)]
      at member
    have aboveOld := lt_size_of_mem_children member
    have belowOld := sound.lt_size member
    rcases orderly.held above below member with isSuited | ⟨level, around⟩
    · exact .inl ((Node.suits_congr (traits above aboveOld) (traits below belowOld)).mpr isSuited)
    · refine .inr ⟨(Node.level_eq_of_traits_eq (traits above aboveOld)).trans level, ?_⟩
      intro top linked
      have linkedBefore := regrouped.parent?_of_par sound aboveOld level linked
      have topOld := lt_size_of_mem_children ((sound.linked top above).mp linkedBefore)
      rw [Node.takes_congr (traits top topOld) (traits below belowOld)]
      exact around top linkedBefore

end Orderly

/-- A text closes nothing, and its level suits any node. -/
theorem suits_text {node next : Node} (proper : node.Proper) {content : String}
    (core : next.core = (textNode content).core) :
    next.isCloser = false ∧ node.Admits next := by
  have traits := Node.traits_eq_of_core_eq core
  constructor
  · have same := congrArg Node.isCloser traits
    exact same.trans (by simp [textNode, Node.isCloser, Node.closesGroup, Node.traits])
  · apply proper.admits_of_deep
    left
    rw [Node.level_eq_of_traits_eq traits]
    exact (by decide : Level.environment ≤ Level.command)

namespace Ready

variable {document : Document} {id : NodeId}

/-- A node that takes up text stays ready. -/
theorem appendText (ready : document.Ready id) (orderly : document.Orderly)
    (content : String) : (document.appendText id content).Ready id := by
  have appended := textAppended ready.inside content
  have later := orderly.appendText ready.inside ready.free content
  constructor
  · exact Nat.lt_of_lt_of_le ready.inside appended.size_le
  · rw [appended.parents id ready.inside]
    exact ready.free
  · intro fragment
    exact ready.whole ((appended.fragments id ready.inside).mp fragment)
  · intro child member
    rcases appended.mem child member with old | ⟨_, text, core⟩
    · exact (Node.suits_congr (appended.traits id ready.inside)
        (appended.traits child (orderly.sound.lt_size old))).mpr (ready.suits child old)
    · exact .inr (suits_text (later.proper id) core)

/-- A node that takes up another one stays ready. -/
theorem attach (ready : document.Ready id) {child : NodeId} (other : document.Ready child)
    (different : child ≠ id) (suits : document.Suits id child) :
    (document.attach id child).Ready id := by
  have traits : ∀ other, ((document.attach id child).node other).traits =
      (document.node other).traits :=
    fun other => Node.traits_eq_of_core_eq (core_attach document id child other)
  constructor
  · simpa using ready.inside
  · rw [parent?_attach other.inside, if_neg (Ne.symm different)]
    exact ready.free
  · rw [Node.kind_eq_of_core_eq (core_attach document id child id)]
    exact ready.whole
  · intro below member
    unfold Suits
    rw [Node.suits_congr (traits id) (traits below)]
    rw [children_attach ready.inside, detach_of_parent?_eq_none other.free, if_pos rfl,
      List.mem_append, List.mem_singleton] at member
    rcases member with old | rfl
    · exact ready.suits below old
    · exact suits

/-- A node stays ready while another one is appended elsewhere. -/
theorem attach_elsewhere (ready : document.Ready id) {parent child : NodeId}
    (other : document.Ready child) (inside : parent < document.size) (notParent : id ≠ parent)
    (notChild : id ≠ child) : (document.attach parent child).Ready id := by
  have core := core_attach document parent child
  have children : (document.attach parent child).children id = document.children id := by
    rw [children_attach inside, detach_of_parent?_eq_none other.free, if_neg notParent,
      List.append_nil]
  constructor
  · simpa using ready.inside
  · rw [parent?_attach other.inside, if_neg notChild]
    exact ready.free
  · rw [Node.kind_eq_of_core_eq (core id)]
    exact ready.whole
  · intro below member
    rw [children] at member
    exact (Node.suits_congr (Node.traits_eq_of_core_eq (core id))
      (Node.traits_eq_of_core_eq (core below))).mpr (ready.suits below member)

/-- A node that is regrouped stays ready. -/
theorem of_regrouped (ready : document.Ready id) (orderly : document.Orderly)
    {result : Document} {parts : List Part} (regrouped : Regrouped document id result parts) :
    result.Ready id := by
  have core := regrouped.core id ready.inside
  constructor
  · exact Nat.lt_of_lt_of_le ready.inside regrouped.size_le
  · rw [regrouped.parent id ready.inside]
    · exact ready.free
    · exact orderly.sound.not_mem_children ready.free id
  · rw [Node.kind_eq_of_core_eq core]
    exact ready.whole
  · exact orderly.suits_of_regrouped ready.suits regrouped

end Ready

end Document

end TexTree
