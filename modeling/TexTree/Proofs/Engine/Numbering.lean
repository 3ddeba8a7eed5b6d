import TexTree.Proofs.Document.Gathering
import TexTree.Proofs.Engine.Reading

/-!
# The numbers of items

What the lists of a document look like can be seen without its texts: each list has its
items, and an item has a number, or none, and the lists inside of it (`Tree.numbering`).

Numbers are given to nodes one after the other while a document is built, and stay.  The
lists are therefore gathered for any assignment of numbers to nodes (`Tally.numbered`), and
what has been gathered is known for all assignments that agree with the document so far
(`Document.Agrees`).
-/

namespace TexTree

/-- A list with what stands in it, or an item with its number and what stands in it. -/
inductive Numbered (α : Type) where
  | list (name : String) (inside : List (Numbered α))
  | item (number : α) (inside : List (Numbered α))
  deriving Repr

namespace Tree

variable {α : Type}

mutual

/-- The lists and items of a tree, with the given number for each item. -/
def numbered (number : NodeId → Node → α) : Tree → List (Numbered α)
  | .node id data children =>
      match data.kind with
      | .text _ => []
      | .element =>
          if data.level = Level.par then numberedAll number children
          else if data.name = "item" then [.item (number id data) (numberedAll number children)]
          else if data.name ∈ Builtin.listNames then [.list data.name (numberedAll number children)]
          else numberedAll number children
      | _ => numberedAll number children

/-- The lists and items of several trees. -/
def numberedAll (number : NodeId → Node → α) : List Tree → List (Numbered α)
  | [] => []
  | tree :: rest => tree.numbered number ++ numberedAll number rest

end

/-- The lists and items of a tree with the numbers that references to them print. -/
def numbering : Tree → List (Numbered (Option String)) := numbered fun _ data => data.number

theorem numberedAll_eq (number : NodeId → Node → α) (trees : List Tree) :
    numberedAll number trees = trees.flatMap (numbered number) := by
  induction trees with
  | nil => rfl
  | cons tree rest ih => rw [numberedAll, ih, List.flatMap_cons]

mutual

/-- Numbers that are given to nodes do not depend on their texts. -/
theorem numbered_bare (number : NodeId → α) :
    (tree : Tree) → tree.bare.numbered (fun id _ => number id) = tree.numbered fun id _ => number id
  | .node id data children => by
      rw [bare, numbered, numbered, numberedAll_bareAll number children]
      rfl

theorem numberedAll_bareAll (number : NodeId → α) :
    (trees : List Tree) → numberedAll (fun id _ => number id) (bareAll trees) =
      numberedAll (fun id _ => number id) trees
  | [] => rfl
  | tree :: rest => by
      rw [bareAll, numberedAll, numberedAll, numbered_bare number tree,
        numberedAll_bareAll number rest]

end

mutual

/-- White space has no lists. -/
theorem numbered_of_isBlank (number : NodeId → Node → α) :
    (tree : Tree) → tree.isBlank → tree.numbered number = []
  | .node id data children, blank => by
      rw [isBlank] at blank
      rw [numbered]
      cases isKind : data.kind with
      | text content => rfl
      | element =>
          simp only [isKind, Bool.and_eq_true, beq_iff_eq] at blank
          have notList : "par" ∉ Builtin.listNames := by decide
          simp [blank.1, notList, numberedAll_of_allBlank number children blank.2]
      | document => simp [isKind] at blank
      | fragment => simp [isKind] at blank

theorem numberedAll_of_allBlank (number : NodeId → Node → α) :
    (trees : List Tree) → allBlank trees → numberedAll number trees = []
  | [], _ => rfl
  | tree :: rest, blank => by
      rw [allBlank, Bool.and_eq_true] at blank
      rw [numberedAll, numbered_of_isBlank number tree blank.1,
        numberedAll_of_allBlank number rest blank.2, List.append_nil]

end

end Tree

namespace Tally

variable {α : Type}

/-- The lists and items of trees, with the given number for each node. -/
def numbered (number : NodeId → α) : Tally (Numbered α) where
  of := Tree.numbered fun id _ => number id
  spelled _ := []
  bare := Tree.numbered_bare number
  text id data children content isText := by rw [Tree.numbered, isText]
  append _ _ := rfl

/-- Lists do not depend on paragraphs. -/
theorem ignoresParagraphs_numbered (number : NodeId → α) :
    (numbered number).IgnoresParagraphs where
  paragraph id data children inner level := by
    change Tree.numbered _ _ = children.flatMap (Tree.numbered _)
    rw [Tree.numbered, ← Tree.numberedAll_eq]
    cases isKind : data.kind with
    | text content => exact absurd isKind (inner content)
    | element => simp [level]
    | document => rfl
    | fragment => rfl
  blank := Tree.numbered_of_isBlank _

end Tally

namespace Document

variable {document between after : Document} {id : NodeId} {α : Type} {number : NodeId → α}

/-! ## Lists and items -/

theorem Sound.gauged_numbered (sound : document.Sound)
    (isElement : (document.node id).kind = .element)
    (level : (document.node id).level ≠ Level.par) :
    document.gauged (.numbered number) id =
      if (document.node id).name = "item" then
        [.item (number id) (document.within (.numbered number) id)]
      else if (document.node id).name ∈ Builtin.listNames then
        [.list (document.node id).name (document.within (.numbered number) id)]
      else document.within (.numbered number) id := by
  have inside : Tree.numberedAll (fun id _ => number id)
      ((document.children id).map document.tree) = document.within (.numbered number) id := by
    rw [Tree.numberedAll_eq, List.flatMap_map]
    rfl
  change Tree.numbered _ (document.tree id) = _
  rw [sound.tree_eq, Tree.numbered, isElement]
  simp only [level, if_false, inside]

/-- The root has the lists of its children. -/
theorem Sound.gauged_numbered_root (sound : document.Sound)
    (isRoot : (document.node id).kind = .document) :
    document.gauged (.numbered number) id = document.within (.numbered number) id := by
  change Tree.numbered _ (document.tree id) = _
  rw [sound.tree_eq, Tree.numbered, isRoot, Tree.numberedAll_eq, List.flatMap_map]
  rfl

/-- The numbers in a tree are those of the nodes of its document. -/
theorem numbering_tree (document : Document) (id : NodeId) :
    (document.tree id).numbering =
      document.gauged (.numbered fun other => (document.node other).number) id := by
  have unfolded : ∀ depth id, (document.unfold depth id).numbering =
      Tree.numbered (fun other _ => (document.node other).number) (document.unfold depth id) := by
    intro depth
    induction depth with
    | zero =>
        intro id
        simp only [unfold, Tree.numbering, Tree.numbered, Tree.numberedAll]
    | succ depth ih =>
        intro id
        have children : ∀ children : List NodeId,
            Tree.numberedAll (fun _ data => data.number) (children.map (document.unfold depth)) =
              Tree.numberedAll (fun other _ => (document.node other).number)
                (children.map (document.unfold depth)) := by
          intro children
          rw [Tree.numberedAll_eq, Tree.numberedAll_eq, List.flatMap_map, List.flatMap_map]
          exact List.flatMap_congr fun child _ => ih child
        simp only [unfold, Tree.numbering, Tree.numbered, children]
  exact unfolded document.size id

/-! ## Numbers stay -/

/-- The assignment gives the nodes of the document their numbers. -/
def Agrees (document : Document) (number : NodeId → Option String) : Prop :=
  ∀ id < document.size, number id = (document.node id).number

/-- A document has grown, and the nodes that were there have kept their numbers. -/
structure KeepsNumbers (document after : Document) : Prop where
  size_le : document.size ≤ after.size
  number : ∀ id < document.size, (after.node id).number = (document.node id).number

/-- What agrees with a later document agrees with the document. -/
theorem KeepsNumbers.agrees (keeps : document.KeepsNumbers after)
    {number : NodeId → Option String} (agrees : after.Agrees number) : document.Agrees number :=
  fun id inside => (agrees id (Nat.lt_of_lt_of_le inside keeps.size_le)).trans
    (keeps.number id inside)

theorem KeepsNumbers.refl (document : Document) : document.KeepsNumbers document :=
  ⟨Nat.le_refl _, fun _ _ => rfl⟩

theorem KeepsNumbers.trans (first : document.KeepsNumbers between)
    (second : between.KeepsNumbers after) : document.KeepsNumbers after where
  size_le := Nat.le_trans first.size_le second.size_le
  number id inside := (second.number id (Nat.lt_of_lt_of_le inside first.size_le)).trans
    (first.number id inside)

theorem keepsNumbers_create (document : Document) (node : Node) :
    document.KeepsNumbers (document.create node).2 where
  size_le := by simp
  number id inside := by rw [node_create_of_lt node inside]

/-- The number of a node does not depend on its links. -/
theorem number_eq_of_core_eq {left right : Node} (equal : left.core = right.core) :
    left.number = right.number := by
  have same := congrArg Node.number equal
  exact same

theorem keepsNumbers_append (document : Document) (parent child : NodeId) :
    document.KeepsNumbers (document.append parent child) where
  size_le := by simp
  number id _ := number_eq_of_core_eq (core_append document parent child id)

theorem keepsNumbers_appendText (document : Document) (parent : NodeId) (content : String) :
    document.KeepsNumbers (document.appendText parent content) := by
  rcases document.appendText_cases parent content with ⟨last, start, _, _, equal⟩ | ⟨_, equal⟩
  · rw [equal]
    refine ⟨by simp, fun id _ => ?_⟩
    rw [node_modify]
    split <;> rfl
  · rw [equal]
    refine (document.keepsNumbers_create (textNode content)).trans ⟨by simp, fun id _ => ?_⟩
    exact number_eq_of_core_eq (core_attach _ _ _ _)

theorem Sound.keepsNumbers_paragraphs (sound : document.Sound) (inside : id < document.size)
    (force : Bool) : document.KeepsNumbers (document.paragraphs id force) := by
  rcases sound.paragraphs inside force with same | ⟨parts, regrouped⟩
  · rw [same]
    exact .refl document
  · exact ⟨regrouped.size_le, fun other old => number_eq_of_core_eq (regrouped.core other old)⟩

end Document

end TexTree
