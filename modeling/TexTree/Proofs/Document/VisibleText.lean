import Mathlib.Data.List.TakeWhile
import TexTree.Proofs.Document.Gathering

/-!
# The visible text

The visible text of a document is its text without white space.  It does not depend on
paragraphs, so that regrouping keeps it (`Orderly.visible_paragraphs`).
-/

namespace TexTree

namespace Text

/-- The characters of a text that are no white space. -/
def visible (characters : List Char) : List Char :=
  characters.filter fun character => !isBlank character

@[simp] theorem visible_append (first second : List Char) :
    visible (first ++ second) = visible first ++ visible second :=
  List.filter_append ..

theorem visible_flatMap {α : Type} (parts : List α) (spell : α → List Char) :
    visible (parts.flatMap spell) = parts.flatMap fun part => visible (spell part) := by
  induction parts with
  | nil => rfl
  | cons part rest ih => rw [List.flatMap_cons, List.flatMap_cons, visible_append, ih]

/-- What is trimmed away entirely has no visible characters. -/
theorem visible_of_trim_isEmpty {text : String} (blank : (trim text).isEmpty) :
    visible text.toList = [] := by
  have trimmed : trimList text.toList = [] := by
    simpa [trim] using blank
  rw [trimList, List.reverse_eq_nil_iff, List.dropWhile_eq_nil_iff] at trimmed
  have nothing : text.toList.dropWhile isBlank = [] := by
    cases remains : text.toList.dropWhile isBlank with
    | nil => rfl
    | cons first rest =>
        have isFirst := trimmed first (by simp [remains])
        have notBlank := List.head_dropWhile_not isBlank (l := text.toList) (by simp [remains])
        simp [remains, isFirst] at notBlank
  rw [List.dropWhile_eq_nil_iff] at nothing
  rw [visible, List.filter_eq_nil_iff]
  intro character member
  simp [nothing character member]

end Text

namespace Tree

mutual

/-- Blank trees have no visible text. -/
theorem visible_of_isBlank : (tree : Tree) → tree.isBlank → Text.visible tree.text.toList = []
  | .node id data children, blank => by
      rw [isBlank] at blank
      rw [text]
      split at blank
      · next content isText =>
          rw [isText]
          exact Text.visible_of_trim_isEmpty blank
      · next isElement =>
          rw [Bool.and_eq_true] at blank
          rw [isElement]
          exact visible_of_allBlank children blank.2
      · cases blank

theorem visible_of_allBlank :
    (trees : List Tree) → allBlank trees → Text.visible (textAll trees).toList = []
  | [], _ => rfl
  | tree :: rest, blank => by
      rw [allBlank, Bool.and_eq_true] at blank
      rw [textAll, String.toList_append, Text.visible_append, visible_of_isBlank tree blank.1,
        visible_of_allBlank rest blank.2, List.append_nil]

end

end Tree

/-- The visible text of trees. -/
def Gauge.visible : Gauge Char where
  of tree := Text.visible tree.text.toList
  spelled content := Text.visible content.toList
  element _ inside := inside
  bare tree := by rw [Tree.text_bare]
  text id data children content isText := by rw [Tree.text, isText]
  composed id data children isElement := by
    rw [Tree.text, isElement, Tree.textAll_eq, Text.visible_flatMap]
  append first second := by rw [String.toList_append, Text.visible_append]

@[inherit_doc Gauge.visible]
abbrev Tally.visible : Tally Char := Gauge.visible.toTally

namespace Document

variable {document : Document} {id : NodeId}

/-- The visible text of a node that is no text is that of its children. -/
theorem Sound.gauged_visible (sound : document.Sound)
    (inner : ∀ content, (document.node id).kind ≠ .text content) :
    document.gauged .visible id = document.within .visible id := by
  have gathered := congrArg Text.visible (sound.textContent_toList inner)
  rw [Text.visible_flatMap] at gathered
  exact gathered

/-- The visible text does not depend on paragraphs. -/
theorem ignoresParagraphs_visible : Tally.visible.IgnoresParagraphs where
  paragraph id data children inner _ := by
    change Text.visible (Tree.text _).toList = children.flatMap fun tree =>
      Text.visible tree.text.toList
    rw [Tree.text]
    split
    · next content isText => exact absurd isText (inner content)
    · rw [Tree.textAll_eq, Text.visible_flatMap]
  blank tree := Tree.visible_of_isBlank tree

/-- Regrouping a node keeps its visible text. -/
theorem Orderly.visible_paragraphs (orderly : document.Orderly) (inside : id < document.size)
    (force : Bool) :
    (document.paragraphs id force).within .visible id = document.within .visible id :=
  orderly.sound.within_paragraphs ignoresParagraphs_visible orderly.textsInline inside force

end Document

end TexTree
