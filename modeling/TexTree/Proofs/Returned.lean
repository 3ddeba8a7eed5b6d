import TexTree.Proofs.Engine.Session

/-!
# Returned documents

What is known about every document that an engine returns, no matter which sources
it has interpreted before.

The level of a node tells below which nodes it may stand (`nested_by_level`).  In
particular sections stand below sections of a lower level, below the root, or in
an environment whose own level is not the one of ordinary environments.

Nodes that only close something are dropped by the root and in arguments.  The
other nodes do not drop them: they either stop at a closing node or take it up as
if it were content, and which of the two they do depends on the levels and on the
number of open scopes alone (`Node.AcceptsCloser`).  A closing node is found in a
document exactly if it was met by a node that accepts it.
-/

namespace TexTree

namespace Node

/-- A node takes up a closing node instead of stopping at it. -/
def AcceptsCloser (node closer : Node) : Prop :=
  match node.digest with
  | .environment =>
      closer.level = Level.par ∨
        node.level ≤ closer.level ∧ ¬(closer.mode = .closing ∧ closer.name = node.name) ∧
          (node.level = Level.document ∨ closer.isOutside node = false)
  | .sectioning =>
      closer.mode ≠ .closing ∧ node.level < closer.level ∧ closer.isOutside node = false
  | .item =>
      closer.mode ≠ .closing ∧ closer.name ≠ node.name ∧ Level.par ≤ closer.level ∧
        closer.isOutside node = false
  | .nothing | .group | .declaration => False

/-- Groups and declarations never take up closing nodes, and the others do it in the
stated cases. -/
theorem takes_iff_acceptsCloser {node closer : Node} (closes : closer.isCloser = true) :
    node.Takes closer ↔ node.AcceptsCloser closer := by
  have either : closer.mode = .closing ∨ closer.closesGroup = true := by
    simpa [isCloser] using closes
  unfold Takes AcceptsCloser reaction
  cases digest : node.digest with
  | nothing => simp
  | environment =>
      dsimp only
      split_ifs with isParagraph lower ends outside
      · simp [isParagraph]
      · simp [isParagraph, Int.not_le.mpr lower]
      · simp [isParagraph, ends]
      · simp [isParagraph, outside]
      · simp only [isParagraph, false_or, true_or, true_iff]
        refine ⟨Int.not_lt.mp lower, ends, ?_⟩
        by_contra neither
        simp only [not_or, Bool.not_eq_false] at neither
        exact outside neither
  | sectioning =>
      dsimp only
      split_ifs with stops
      · simp only [or_self, false_iff]
        rintro ⟨opens, lower, inside⟩
        rcases stops with higher | isClosing | outside
        · exact Int.not_le.mpr lower higher
        · exact opens isClosing
        · simp [inside] at outside
      · simp only [not_or, Bool.not_eq_true, Int.not_le] at stops
        simp [stops]
  | item =>
      dsimp only
      split_ifs with stops
      · simp only [or_self, false_iff]
        rintro ⟨opens, other, lower, inside⟩
        rcases stops with same | isClosing | higher | outside
        · exact other same
        · exact opens isClosing
        · exact Int.not_le.mpr higher lower
        · simp [inside] at outside
      · simp only [not_or, Bool.not_eq_true, Int.not_lt] at stops
        simp [stops]
  | group =>
      dsimp only
      split_ifs with higher ends isDeclaration stops
      · simp
      · simp
      · simp
      · simp
      · rcases either with isClosing | closesGroup
        · exact absurd (.inr isClosing) stops
        · exact absurd closesGroup ends
  | declaration =>
      dsimp only
      split_ifs with higher ends isDeclaration stops
      · simp
      · simp
      · simp
      · simp
      · rcases either with isClosing | closesGroup
        · exact absurd (.inr isClosing) stops
        · exact absurd closesGroup ends

end Node

namespace Document

/-- A node lies below another one, or in a paragraph below it. -/
def Holds (document : Document) (holder child : NodeId) : Prop :=
  child ∈ document.children holder ∨
    ∃ par ∈ document.children holder, (document.node par).level = Level.par ∧
      child ∈ document.children par

/-- In an orderly document the level of a child always suits its parent. -/
theorem Orderly.admits {document : Document} (orderly : document.Orderly)
    {parent child : NodeId} (member : child ∈ document.children parent) :
    (document.node parent).Admits (document.node child) := by
  rcases orderly.held parent child member with suits | ⟨isParagraph, _⟩
  · exact suits.admits
  · exact (orderly.proper parent).admits_of_paragraph isParagraph _

/-- Below the root every node has a parent, which lies below the root as well. -/
theorem Reaches.exists_parent {document : Document} {top id : NodeId}
    (path : document.Reaches top id) (below : id ≠ top) :
    ∃ parent, document.Reaches top parent ∧ id ∈ document.children parent := by
  rcases path.cases_tail with same | ⟨parent, before, member⟩
  · exact absurd same below
  · exact ⟨parent, before, member⟩

end Document

namespace Engine

variable {engine : Engine} {document : Document}

/-- Nodes are nested by their levels. -/
theorem nested_by_level (used : engine.Used) (returns : engine.Returns document)
    {parent child : NodeId} (member : child ∈ document.children parent) :
    ((document.node parent).digest = .sectioning →
        (document.node parent).level < (document.node child).level) ∧
      ((document.node parent).digest = .group ∨ (document.node parent).digest = .declaration →
        Level.endSections ≤ (document.node child).level) ∧
      ((document.node parent).digest = .item → Level.par ≤ (document.node child).level) ∧
      ((document.node parent).digest = .environment →
        (document.node parent).level = Level.environment →
        Level.environment ≤ (document.node child).level ∨
          (document.node child).level = Level.par) ∧
      ((document.node child).digest = .sectioning →
        (document.node parent).digest ≠ .group ∧ (document.node parent).digest ≠ .declaration ∧
          (document.node parent).digest ≠ .item ∧
          ¬((document.node parent).digest = .environment ∧
            (document.node parent).level = Level.environment)) := by
  have orderly := (used.returned returns).orderly
  have admits := orderly.admits member
  have high := (orderly.proper child).sectioning
  unfold Node.Admits at admits
  have group : (document.node parent).digest = .group ∨
      (document.node parent).digest = .declaration →
      Level.endSections ≤ (document.node child).level := by
    rintro (digest | digest)
    · simpa only [digest] using admits
    · simpa only [digest] using admits
  have item : (document.node parent).digest = .item →
      Level.par ≤ (document.node child).level := by
    intro digest
    simpa only [digest] using admits
  have environment : (document.node parent).digest = .environment →
      (document.node parent).level = Level.environment →
      Level.environment ≤ (document.node child).level ∨
        (document.node child).level = Level.par := by
    intro digest
    simpa only [digest] using admits
  refine ⟨?_, group, item, environment, ?_⟩
  · intro digest
    simpa only [digest] using admits
  · -- The levels of sections lie before all of these bounds.
    intro isSection
    have isHigh := high isSection
    have notBelow : ∀ bound : Level, Level.endSections ≤ bound →
        ¬bound ≤ (document.node child).level := fun bound isBound below =>
      Int.not_lt.mpr (Int.le_trans isBound below) isHigh
    refine ⟨?_, ?_, ?_, ?_⟩
    · intro digest
      exact notBelow Level.endSections (by decide) (group (.inl digest))
    · intro digest
      exact notBelow Level.endSections (by decide) (group (.inr digest))
    · intro digest
      exact notBelow Level.par (by decide) (item digest)
    · rintro ⟨digest, level⟩
      rcases environment digest level with below | isParagraph
      · exact notBelow Level.environment (by decide) below
      · exact notBelow Level.par (by decide) (Int.le_of_eq isParagraph.symm)

set_option maxRecDepth 100000 in
/-- The text of a section stands in a paragraph, whose level is above the one of the
section. -/
theorem nested_by_level_section :
    ∃ document, (fresh {} default ⟨2021, 3, 4⟩ .empty).Returns document ∧
      document.children 1 = [5] ∧ (document.node 1).digest = .sectioning ∧
      (document.node 1).level < (document.node 5).level := by
  have facts : (document? (parseTextWithin 100 "\\section\x7ba\x7db"
      (fresh {} default ⟨2021, 3, 4⟩ .empty))).map (fun document =>
        (document.children 1, (document.node 1).digest)) = some ([5], .sectioning) := by
    rw [fresh, Builtin.scopes_eq]
    decide +kernel
  obtain ⟨document, success, known⟩ := Option.map_eq_some_iff.mp facts
  obtain ⟨children, digest⟩ := Prod.mk.inj known
  have returns : (fresh {} default ⟨2021, 3, 4⟩ .empty).Returns document :=
    ⟨100, .inl ⟨_, success⟩⟩
  refine ⟨document, returns, children, digest, ?_⟩
  exact (nested_by_level (.fresh _ _ _) returns (by simp [children])).1 digest

/-- A node takes up closing nodes exactly if it accepts them, and a closing node is part
of a returned document exactly if it is held by a node of the document that accepts
it. -/
theorem closer_reached_iff (used : engine.Used) (returns : engine.Returns document) :
    (∀ node closer : Node, closer.isCloser = true →
        (node.reaction closer = .takeUp ∨ node.reaction closer = .append ↔
          node.AcceptsCloser closer)) ∧
      ∀ closer, (document.node closer).isCloser = true →
        (document.Reaches Document.root closer ↔
          ∃ holder, document.Reaches Document.root holder ∧ document.Holds holder closer ∧
            (document.node holder).AcceptsCloser (document.node closer)) := by
  have returned := used.returned returns
  have orderly := returned.orderly
  refine ⟨fun node closer closes => Node.takes_iff_acceptsCloser closes, ?_⟩
  intro closer closes
  have accepts : ∀ {holder}, (document.node holder).Takes (document.node closer) →
      (document.node holder).AcceptsCloser (document.node closer) :=
    (Node.takes_iff_acceptsCloser closes).mp
  constructor
  · intro path
    have notRoot : closer ≠ Document.root := by
      rintro rfl
      have same := congrArg Node.isCloser returned.root
      have isRoot : (document.node Document.root).isCloser = false := same.trans (by decide)
      rw [isRoot] at closes
      cases closes
    obtain ⟨parent, pathParent, member⟩ := path.exists_parent notRoot
    rcases orderly.held parent closer member with (takes | ⟨opens, _⟩) | ⟨isParagraph, around⟩
    · exact ⟨parent, pathParent, .inl member, accepts takes⟩
    · rw [opens] at closes
      cases closes
    · -- The parent is a paragraph, and the node that was regrouped stands above it.
      have below : parent ≠ Document.root := by
        rintro rfl
        rw [returned.level_root] at isParagraph
        exact absurd isParagraph (by decide)
      obtain ⟨holder, pathHolder, isBelow⟩ := pathParent.exists_parent below
      have takes := around holder ((orderly.sound.linked holder parent).mpr isBelow)
      exact ⟨holder, pathHolder, .inr ⟨parent, isBelow, isParagraph, member⟩, accepts takes⟩
  · rintro ⟨holder, path, holds, _⟩
    rcases holds with member | ⟨par, isBelow, _, member⟩
    · exact path.tail member
    · exact (path.tail isBelow).tail member

set_option maxRecDepth 100000 in
/-- A section ends a group early, and the end of the group becomes a child of the document
environment. -/
theorem closer_reached_group_end :
    ∃ document, (fresh {} default ⟨2021, 3, 4⟩ .empty).Returns document ∧
      document.Reaches Document.root 7 ∧ (document.node 7).name = "egroup" ∧
      ∃ holder, document.Holds holder 7 ∧
        (document.node holder).AcceptsCloser (document.node 7) := by
  have facts : (document? (parseTextWithin 100
      "\\begin\x7bdocument\x7d\x7b\\section\x7ba\x7db\x7d\\end\x7bdocument\x7d"
      (fresh {} default ⟨2021, 3, 4⟩ .empty))).map (fun document =>
        (document.children 0, document.children 1, (document.node 7).name)) =
      some ([1], [2, 3, 7], "egroup") := by
    rw [fresh, Builtin.scopes_eq]
    decide +kernel
  obtain ⟨document, success, known⟩ := Option.map_eq_some_iff.mp facts
  obtain ⟨top, rest⟩ := Prod.mk.inj known
  obtain ⟨below, name⟩ := Prod.mk.inj rest
  have returns : (fresh {} default ⟨2021, 3, 4⟩ .empty).Returns document :=
    ⟨100, .inl ⟨_, success⟩⟩
  have path : document.Reaches Document.root 7 := by
    refine (Relation.ReflTransGen.single (b := 1) ?_).tail (?_ : 7 ∈ document.children 1)
    · simp [Document.root, top]
    · simp [below]
  have closes : (document.node 7).isCloser = true := by
    simp [Node.isCloser, Node.closesGroup, name]
  have reached := ((closer_reached_iff (.fresh _ _ _) returns).2 7 closes).mp path
  obtain ⟨holder, _, holds, accepts⟩ := reached
  exact ⟨document, returns, path, name, holder, holds, accepts⟩

end Engine

end TexTree
