import TexTree.Document.Tree

/-!
# Paragraphs

While a document is built, a paragraph break is a node among others.  Regrouping
puts what stands between two breaks into the node of the first one.  Blocks and
sections stay outside of paragraphs, and paragraphs that hold only white space
are dropped.
-/

namespace TexTree.Document

/-- The state of regrouping: the paragraph that is being filled and the new
children so far, in reverse order. -/
structure Regrouping where
  document : Document
  current : NodeId
  reversed : List NodeId

namespace Regrouping

/-- Start a new paragraph. -/
def openParagraph (document : Document) (reversed : List NodeId) : Regrouping :=
  let (par, document) := document.createElement "par" Level.par .plain
  ⟨document, par, par :: reversed⟩

/-- Take up the next child.  A break without content is filled from now on; a
paragraph with content, a block or a section is kept as it is. -/
def add (state : Regrouping) (child : NodeId) : Regrouping :=
  let node := state.document.node child
  if node.level = Level.par && node.children.isEmpty then
    ⟨state.document, child, child :: state.reversed⟩
  else if node.level = Level.par || node.block || node.level < Level.par then
    openParagraph state.document (child :: state.reversed)
  else { state with document := state.document.append state.current child }

end Regrouping

/-- Regroup the children of a node into paragraphs.  Unless it is forced, this
happens only if there is a paragraph among them. -/
def paragraphs (document : Document) (id : NodeId) (force : Bool) : Document :=
  let children := document.children id
  if force || children.any fun child => (document.node child).level = Level.par then
    let final := children.foldl Regrouping.add (Regrouping.openParagraph document [])
    let kept := final.reversed.reverse.filter fun child =>
      (final.document.node child).level ≠ Level.par || !final.document.isBlank child
    final.document.setChildren id kept
  else document

end TexTree.Document
