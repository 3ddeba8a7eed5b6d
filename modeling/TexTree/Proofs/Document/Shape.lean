import TexTree.Proofs.Document.Gauge

/-!
# Shapes

The shape of a tree is its nesting: the characters of its texts, and its elements
with the parts that their sources are written from.  It does not matter how a text is
divided.

The source of a tree can be read off its shape (`Shape.sourceAll_shapes`), so that two
trees of the same shape have the same source.
-/

namespace TexTree

/-- A character of a text, or an element with what is in it. -/
inductive Shape where
  | character (value : Char)
  | element (form : Form) (content : List Shape)
  deriving Repr

/-- The source of an element of a form whose content has the given source. -/
def Form.source (form : Form) (content : String) : String :=
  Tree.elementSource
    { Document.element form.name Level.command form.mode with
      contentForm := form.contentForm, argumentSource := form.argumentSource }
    content

/-- The source of an element is written from its form. -/
theorem Tree.elementSource_eq (data : Node) (content : String) :
    Tree.elementSource data content = data.form.source content := rfl

namespace Shape

mutual

/-- The source of a shape. -/
def source : Shape → String
  | .character value => String.singleton value
  | .element form content => form.source (sourceAll content)

/-- The source of several shapes. -/
def sourceAll : List Shape → String
  | [] => ""
  | shape :: rest => shape.source ++ sourceAll rest

end

theorem sourceAll_append (first second : List Shape) :
    sourceAll (first ++ second) = sourceAll first ++ sourceAll second := by
  induction first with
  | nil => exact String.empty_append.symm
  | cons shape rest ih => rw [List.cons_append, sourceAll, sourceAll, ih, String.append_assoc]

/-- The shape of a text. -/
def ofText (characters : List Char) : List Shape := characters.map character

@[simp] theorem ofText_append (first second : List Char) :
    ofText (first ++ second) = ofText first ++ ofText second := List.map_append

theorem sourceAll_ofText (characters : List Char) :
    sourceAll (ofText characters) = String.ofList characters := by
  induction characters with
  | nil => rfl
  | cons first rest ih =>
      change source (.character first) ++ sourceAll (ofText rest) = _
      rw [ih, source, String.singleton_eq_ofList, ← String.ofList_append, List.singleton_append]

end Shape

namespace Tree

mutual

/-- The shapes of a tree.  A root and a fragment do not count by themselves. -/
def shapes : Tree → List Shape
  | .node _ data children =>
      match data.kind with
      | .text content => Shape.ofText content.toList
      | .element => [.element data.form (shapesAll children)]
      | _ => shapesAll children

/-- The shapes of several trees. -/
def shapesAll : List Tree → List Shape
  | [] => []
  | tree :: rest => tree.shapes ++ shapesAll rest

end

theorem shapesAll_eq (trees : List Tree) : shapesAll trees = trees.flatMap shapes := by
  induction trees with
  | nil => rfl
  | cons tree rest ih => rw [shapesAll, ih, List.flatMap_cons]

mutual

theorem shapes_bare : (tree : Tree) → tree.bare.shapes = tree.shapes
  | .node id data children => by
      rw [bare, shapes, shapes, shapesAll_bareAll children]
      rfl

theorem shapesAll_bareAll : (trees : List Tree) → shapesAll (bareAll trees) = shapesAll trees
  | [] => rfl
  | tree :: rest => by
      rw [bareAll, shapesAll, shapesAll, shapes_bare tree, shapesAll_bareAll rest]

end

mutual

/-- The source of a tree is that of its shapes. -/
theorem sourceAll_shapes : (tree : Tree) → Shape.sourceAll tree.shapes = tree.source
  | .node id data children => by
      have inside := sourceAll_shapesAll children
      rw [shapes, source]
      cases data.kind with
      | text content => exact (Shape.sourceAll_ofText _).trans (String.ofList_toList)
      | element =>
          change Shape.source (.element data.form (shapesAll children)) ++ "" = _
          rw [String.append_empty, Shape.source, inside, elementSource_eq]
      | document | fragment => exact inside

theorem sourceAll_shapesAll :
    (trees : List Tree) → Shape.sourceAll (shapesAll trees) = sourceAll trees
  | [] => rfl
  | tree :: rest => by
      rw [shapesAll, Shape.sourceAll_append, sourceAll_shapes tree, sourceAll_shapesAll rest,
        sourceAll]

end

end Tree

/-- The shapes of trees. -/
def Gauge.shape : Gauge Shape where
  of := Tree.shapes
  spelled content := Shape.ofText content.toList
  element form inside := [.element form inside]
  bare := Tree.shapes_bare
  text id data children content isText := by rw [Tree.shapes, isText]
  composed id data children isElement := by rw [Tree.shapes, isElement, Tree.shapesAll_eq]
  append first second := by rw [String.toList_append, Shape.ofText_append]

@[inherit_doc Gauge.shape]
abbrev Tally.shape : Tally Shape := Gauge.shape.toTally

namespace Document

variable {document : Document} {id : NodeId}

/-- The source of a node is that of its shapes. -/
theorem source_eq_sourceAll_gauged :
    document.source id = Shape.sourceAll (document.gauged .shape id) :=
  (Tree.sourceAll_shapes (document.tree id)).symm

/-- The root has the shapes of its children. -/
theorem Sound.gauged_shape (sound : document.Sound)
    (isRoot : (document.node id).kind = .document) :
    document.gauged .shape id = document.within .shape id := by
  change (document.tree id).shapes = _
  rw [sound.tree_eq, Tree.shapes, isRoot, Tree.shapesAll_eq, List.flatMap_map]
  rfl

end Document

end TexTree
