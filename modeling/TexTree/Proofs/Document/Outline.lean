import TexTree.Proofs.Document.Shape

/-!
# Outlines

The outline of a tree says how its elements are nested: each of them with its name, its
mode and its text content, and with the elements directly inside of it in their order.
The outline and the text of a tree can be read off its shapes.
-/

namespace TexTree

/-- An element with the elements directly inside of it. -/
inductive Outline where
  | node (name : String) (mode : Mode) (text : String) (inside : List Outline)
  deriving Repr

namespace Shape

mutual

/-- The characters of a shape. -/
def text : Shape → List Char
  | .character value => [value]
  | .element _ content => textAll content

/-- The characters of several shapes. -/
def textAll : List Shape → List Char
  | [] => []
  | shape :: rest => shape.text ++ textAll rest

end

mutual

/-- The outline of a shape. -/
def outline : Shape → List Outline
  | .character _ => []
  | .element form content =>
      [.node form.name form.mode (String.ofList (textAll content)) (outlineAll content)]

/-- The outline of several shapes. -/
def outlineAll : List Shape → List Outline
  | [] => []
  | shape :: rest => shape.outline ++ outlineAll rest

end

@[simp] theorem textAll_append (first second : List Shape) :
    textAll (first ++ second) = textAll first ++ textAll second := by
  induction first with
  | nil => rfl
  | cons shape rest ih => rw [List.cons_append, textAll, textAll, ih, List.append_assoc]

@[simp] theorem outlineAll_append (first second : List Shape) :
    outlineAll (first ++ second) = outlineAll first ++ outlineAll second := by
  induction first with
  | nil => rfl
  | cons shape rest ih => rw [List.cons_append, outlineAll, outlineAll, ih, List.append_assoc]

@[simp] theorem textAll_ofText (characters : List Char) :
    textAll (ofText characters) = characters := by
  induction characters with
  | nil => rfl
  | cons first rest ih => exact congrArg (first :: ·) ih

@[simp] theorem outlineAll_ofText (characters : List Char) :
    outlineAll (ofText characters) = [] := by
  induction characters with
  | nil => rfl
  | cons first rest ih => exact ih

end Shape

namespace Tree

mutual

/-- The outline of a tree.  A root and a fragment do not count by themselves. -/
def outline : Tree → List Outline
  | .node id data children =>
      match data.kind with
      | .text _ => []
      | .element =>
          [.node data.name data.mode (Tree.node id data children).text (outlineAll children)]
      | _ => outlineAll children

/-- The outline of several trees. -/
def outlineAll : List Tree → List Outline
  | [] => []
  | tree :: rest => tree.outline ++ outlineAll rest

end

mutual

/-- The text of a tree is that of its shapes. -/
theorem textAll_shapes : (tree : Tree) → String.ofList (Shape.textAll tree.shapes) = tree.text
  | .node id data children => by
      have inside := textAll_shapesAll children
      rw [shapes, text]
      cases data.kind with
      | text content => rw [Shape.textAll_ofText, String.ofList_toList]
      | element =>
          change String.ofList (Shape.textAll (shapesAll children) ++ []) = _
          rw [List.append_nil, inside]
      | document | fragment => exact inside

theorem textAll_shapesAll :
    (trees : List Tree) → String.ofList (Shape.textAll (shapesAll trees)) = textAll trees
  | [] => rfl
  | tree :: rest => by
      rw [shapesAll, Shape.textAll_append, String.ofList_append, textAll_shapes tree,
        textAll_shapesAll rest, textAll]

end

/-- The text of an element is that of its children. -/
theorem text_element {data : Node} (isElement : data.kind = .element) (id : NodeId)
    (children : List Tree) : (Tree.node id data children).text = textAll children := by
  rw [text, isElement]

mutual

/-- The outline of a tree is that of its shapes. -/
theorem outlineAll_shapes : (tree : Tree) → Shape.outlineAll tree.shapes = tree.outline
  | .node id data children => by
      have inside := outlineAll_shapesAll children
      have isText := textAll_shapesAll children
      rw [shapes, outline]
      cases isKind : data.kind with
      | text content => exact Shape.outlineAll_ofText _
      | element =>
          rw [text_element isKind, ← inside, ← isText]
          rfl
      | document | fragment => exact inside

theorem outlineAll_shapesAll :
    (trees : List Tree) → Shape.outlineAll (shapesAll trees) = outlineAll trees
  | [] => rfl
  | tree :: rest => by
      rw [shapesAll, Shape.outlineAll_append, outlineAll_shapes tree, outlineAll_shapesAll rest,
        outlineAll]

end

end Tree

end TexTree
