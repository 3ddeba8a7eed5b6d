import TexTree.Proofs.Document.Gauge

/-!
# Regrouping keeps what is gathered

Regrouping a node into paragraphs moves its children and drops paragraphs that are white
space.  A tally that neither sees paragraphs nor white space gathers the same before and
behind it (`Sound.within_paragraphs`).
-/

namespace TexTree

namespace Tally

variable {β : Type}

/-- The tally does not see how text is grouped into paragraphs. -/
structure IgnoresParagraphs (tally : Tally β) : Prop where
  paragraph : ∀ id data children, (∀ content, data.kind ≠ .text content) →
    data.level = Level.par → tally.of (.node id data children) = children.flatMap tally.of
  blank : ∀ tree : Tree, tree.isBlank → tally.of tree = []

end Tally

namespace Document

variable {β : Type} {tally : Tally β} {document result : Document} {id : NodeId}
  {parts : List Part}

/-! ## Texts are no paragraphs -/

/-- No text is a paragraph, so that every paragraph shows its children. -/
def TextsInline (document : Document) : Prop :=
  ∀ id content, (document.node id).kind = .text content → (document.node id).level ≠ Level.par

theorem TextsInline.not_text (inline : document.TextsInline)
    (level : (document.node id).level = Level.par) (content : String) :
    (document.node id).kind ≠ .text content :=
  fun isText => inline id content isText level

theorem Orderly.textsInline (orderly : document.Orderly) : document.TextsInline := by
  intro id content isText level
  rw [(orderly.proper id).element level] at isText
  cases isText

/-- Regrouping makes no text a paragraph. -/
theorem TextsInline.of_regrouped (inline : document.TextsInline)
    (regrouped : Regrouped document id result parts) : result.TextsInline := by
  intro node content isText
  by_cases old : node < document.size
  · have core := regrouped.core node old
    rw [Node.level_eq_of_traits_eq (Node.traits_eq_of_core_eq core)]
    exact inline node content ((Node.kind_eq_of_core_eq core).symm.trans isText)
  · by_cases inside : node < result.size
    · rw [Node.kind_eq_of_core_eq (regrouped.fresh node (Nat.le_of_not_lt old) inside)] at isText
      cases isText
    · rw [node_of_size_le (Nat.le_of_not_lt inside)] at isText
      cases isText

/-! ## What stays as it is -/

/-- What no paragraph was filled with, and what is no paragraph that was filled, has the same
tree as before. -/
theorem Regrouped.bare_tree_of_mem (regrouped : Regrouped document id result parts)
    (sound : document.Sound) {child : NodeId} (member : child ∈ document.children id)
    (unfilled : ∀ content, .paragraph child content ∈ parts → content = []) :
    (result.tree child).bare = (document.tree child).bare := by
  apply bare_tree_congr sound regrouped.sound
  intro below path
  have old : below < document.size := by
    rcases Relation.ReflTransGen.cases_tail path with equal | ⟨_, _, listed⟩
    · exact equal ▸ sound.lt_size member
    · exact sound.lt_size listed
  refine ⟨?_, Node.essence_eq_of_core_eq (regrouped.core below old)⟩
  by_cases isParagraph : ∃ content, .paragraph below content ∈ parts
  · obtain ⟨content, found⟩ := isParagraph
    obtain ⟨_, children, isBreak⟩ := regrouped.paragraphs below content found
    rw [children, (isBreak old).2]
    rcases Relation.ReflTransGen.cases_tail path with equal | ⟨middle, higher, listed⟩
    · exact unfilled content (equal ▸ found)
    · -- A paragraph is a child of the regrouped node, which does not lie below its children.
      have isChild : below ∈ document.children id := regrouped.mem_children_of_part found old
      have above : middle = id := by
        by_contra differs
        exact sound.not_mem_of_mem isChild differs listed
      exact absurd (above ▸ higher) (sound.not_reaches_of_mem member)
  · apply regrouped.children below
    · intro equal
      exact sound.not_reaches_of_mem member (equal ▸ path)
    · exact fun content found => isParagraph ⟨content, found⟩

/-- What was put into a paragraph has the same tree as before. -/
theorem Regrouped.bare_tree_of_content (regrouped : Regrouped document id result parts)
    (sound : document.Sound) {par child : NodeId} {content : List NodeId}
    (found : .paragraph par content ∈ parts) (member : child ∈ content) :
    (result.tree child).bare = (document.tree child).bare := by
  apply regrouped.bare_tree_of_mem sound (regrouped.mem_children_of_content found member)
  intro other isParagraph
  exact absurd (Part.mem_moved.mpr ⟨_, found, member⟩)
    (regrouped.not_mem_moved sound isParagraph)

/-- What was kept outside of paragraphs has the same tree as before. -/
theorem Regrouped.bare_tree_of_solid (regrouped : Regrouped document id result parts)
    (sound : document.Sound) {child : NodeId} (found : .solid child ∈ parts) :
    (result.tree child).bare = (document.tree child).bare := by
  have member : child ∈ document.children id :=
    regrouped.mem_children_of_listed found (by simp [Part.listed])
  apply regrouped.bare_tree_of_mem sound member
  intro content isParagraph
  -- A child stands for one part only.
  have distinct := regrouped.distinct
  rw [List.nodup_map_iff_inj_on (regrouped.distinct.of_map _)] at distinct
  cases distinct _ found _ isParagraph rfl

/-! ## What is gathered -/

/-- A tree that is the same but for what does not count contributes the same. -/
theorem gauged_of_bare {child : NodeId}
    (same : (result.tree child).bare = (document.tree child).bare) :
    result.gauged tally child = document.gauged tally child := by
  rw [gauged, gauged, ← tally.bare, same, tally.bare]

/-- A paragraph contributes what its children do. -/
theorem Sound.gauged_paragraph (sound : document.Sound) (ignores : tally.IgnoresParagraphs)
    (inline : document.TextsInline) (level : (document.node id).level = Level.par) :
    document.gauged tally id = document.within tally id := by
  rw [gauged, sound.tree_eq, ignores.paragraph _ _ _ (inline.not_text level) level,
    List.flatMap_map]
  rfl

/-- A paragraph that is dropped contributes nothing. -/
theorem gauged_of_not_keepsPart (ignores : tally.IgnoresParagraphs)
    (dropped : ¬document.keepsPart id) : document.gauged tally id = [] := by
  simp only [keepsPart, decide_not, Bool.or_eq_true, Bool.not_eq_true', not_or,
    Bool.not_eq_false, decide_eq_false_iff_not, not_not] at dropped
  exact ignores.blank _ dropped.2

/-- A part contributes what the children did that it accounts for. -/
theorem Regrouped.gauged_part (regrouped : Regrouped document id result parts)
    (ignores : tally.IgnoresParagraphs) (sound : document.Sound) (inline : document.TextsInline)
    {part : Part} (found : part ∈ parts) :
    result.gauged tally part.id = (part.listed document).flatMap (document.gauged tally) := by
  cases part with
  | solid child =>
      rw [Part.listed, List.flatMap_singleton]
      exact gauged_of_bare (regrouped.bare_tree_of_solid sound found)
  | paragraph par content =>
      obtain ⟨_, children, isBreak⟩ := regrouped.paragraphs par content found
      have moved : content.flatMap (result.gauged tally) =
          content.flatMap (document.gauged tally) := by
        apply List.flatMap_congr
        intro child member
        exact gauged_of_bare (regrouped.bare_tree_of_content sound found member)
      rw [Part.id, regrouped.sound.gauged_paragraph ignores (inline.of_regrouped regrouped)
        (regrouped.level_paragraph found), within, children, moved, Part.listed]
      split
      · next old =>
          rw [List.flatMap_cons, sound.gauged_paragraph ignores inline (isBreak old).1,
            within_of_childless (isBreak old).2, List.nil_append]
      · rfl

/-- Regrouping a node keeps what is gathered from its children. -/
theorem Sound.within_paragraphs (sound : document.Sound) (ignores : tally.IgnoresParagraphs)
    (inline : document.TextsInline) (inside : id < document.size) (force : Bool) :
    (document.paragraphs id force).within tally id = document.within tally id := by
  rcases sound.paragraphs inside force with same | ⟨parts, regrouped⟩
  · rw [same]
  · generalize document.paragraphs id force = result at regrouped
    have kept : ∀ nodes : List NodeId,
        (nodes.filter result.keepsPart).flatMap (result.gauged tally) =
          nodes.flatMap (result.gauged tally) := by
      intro nodes
      induction nodes with
      | nil => rfl
      | cons node rest ih =>
          by_cases keeps : result.keepsPart node
          · rw [List.filter_cons_of_pos keeps, List.flatMap_cons, List.flatMap_cons, ih]
          · rw [List.filter_cons_of_neg keeps, List.flatMap_cons, ih,
              gauged_of_not_keepsPart ignores keeps, List.nil_append]
    rw [within, within, regrouped.children_id, kept, ← regrouped.listed, List.flatMap_map,
      List.flatMap_assoc]
    apply List.flatMap_congr
    intro part found
    exact regrouped.gauged_part ignores sound inline found

end Document

end TexTree
