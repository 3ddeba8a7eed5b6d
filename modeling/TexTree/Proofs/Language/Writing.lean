import TexTree.Proofs.Engine.Mirroring
import TexTree.Proofs.Language.Passage

/-!
# Writings

A writing is a list of pieces: texts, groups, commands with their content, environments
and formulas, nested in each other.  Everything in it closes where it stands, so that the
tree below the root has the nesting of the writing, and the source of the root is the
writing as it was printed (`Writing.source_restored`).
-/

namespace TexTree

open Text (Word)

mutual

/-- A piece of writing at a place. -/
inductive Piece : Place → Type where
  /-- Words with single spaces between them. -/
  | text {place : Place} (first : Word) (more : List Word) : Piece place
  | group {place : Place} (body : Writing place) : Piece place
  /-- A command whose argument is its content. -/
  | command {place : Place} (name : String) (known : name ∈ Builtin.fontNames)
    (body : Writing place) : Piece place
  | environment {place : Place} (name : String) (known : name ∈ Builtin.blockNames)
    (body : Writing place) : Piece place
  /-- A formula, in which something stands, but no other formula. -/
  | formula (first : Piece .formula) (more : Writing .formula) : Piece .text

/-- Pieces one after the other. -/
inductive Writing : Place → Type where
  | done {place : Place} : Writing place
  | piece {place : Place} (first : Piece place) (rest : Writing place) : Writing place

end

mutual

/-- The characters of a piece. -/
def Piece.print {place : Place} : Piece place → List Char
  | .text first more => Text.spaced (first :: more)
  | .group body => Written.group body.print
  | .command name _ body => Written.command name body.print
  | .environment name _ body => Written.environment name body.print
  | .formula first more => ['$'] ++ ((first.print ++ more.print) ++ ['$'])

/-- The characters of a writing. -/
def Writing.print {place : Place} : Writing place → List Char
  | .done => []
  | .piece first rest => first.print ++ rest.print

end

mutual

/-- The nesting of a piece. -/
def Piece.shapes {place : Place} : Piece place → List Shape
  | .text first more => Shape.ofText (Text.spaced (first :: more))
  | .group body => [.element Opening.group.form body.shapes]
  | .command name _ body => [.element (.enclosing name) body.shapes]
  | .environment name _ body => [.element (Opening.environment name).form body.shapes]
  | .formula first more => [.element Opening.formula.form (first.shapes ++ more.shapes)]

/-- The nesting of a writing. -/
def Writing.shapes {place : Place} : Writing place → List Shape
  | .done => []
  | .piece first rest => first.shapes ++ rest.shapes

end

/-! ## From the shapes to the characters -/

namespace Form

theorem source_group (content : List Char) :
    Opening.group.form.source (String.ofList content) = String.ofList (Written.group content) := by
  apply String.toList_injective
  simp [source, Opening.form, Document.element, Tree.elementSource, Tree.inBraces, Written.group]

theorem source_enclosing {name : String} (known : name ∈ Builtin.fontNames)
    (content : List Char) :
    (Form.enclosing name).source (String.ofList content) =
      String.ofList (Written.command name content) := by
  have facts : ∀ name ∈ Builtin.fontNames, name ≠ "bgroup" ∧ name ≠ "begingroup" ∧ name ≠ "par" ∧
      Text.afterMark? Token.activeMark name = none := by decide +kernel
  obtain ⟨notGroup, notBegun, notBreak, notActive⟩ := facts name known
  apply String.toList_injective
  simp [source, Form.enclosing, Document.element, Tree.elementSource, Tree.commandSource,
    Tree.inBraces, Written.command, notGroup, notBegun, notBreak, notActive]

theorem source_environment {name : String} (known : name ∈ Builtin.blockNames)
    (content : List Char) :
    (Opening.environment name).form.source (String.ofList content) =
      String.ofList (Written.environment name content) := by
  have facts : ∀ name ∈ Builtin.blockNames, name ≠ "bgroup" ∧ name ≠ "begingroup" ∧ name ≠ "par" ∧
      name ≠ "math" ∧ name ≠ "displaymath" := by decide +kernel
  obtain ⟨notGroup, notBegun, notBreak, notFormula, notDisplay⟩ := facts name known
  apply String.toList_injective
  simp [source, Opening.form, Document.element, Tree.elementSource, Tree.inBraces,
    Written.command, Written.environment, notGroup, notBegun, notBreak, notFormula, notDisplay]

theorem source_formula (content : List Char) :
    Opening.formula.form.source (String.ofList content) =
      String.ofList (['$'] ++ (content ++ ['$'])) := by
  apply String.toList_injective
  simp [source, Opening.form, Document.element, Tree.elementSource, Tree.closingDelimiter]

end Form

/-- The source of one element. -/
theorem Shape.sourceAll_element (form : Form) (content : List Shape) :
    sourceAll [.element form content] = form.source (sourceAll content) :=
  String.append_empty

mutual

/-- A piece is written as its nesting says. -/
theorem Piece.sourceAll_shapes {place : Place} :
    (piece : Piece place) → Shape.sourceAll piece.shapes = String.ofList piece.print
  | .text first more => Shape.sourceAll_ofText _
  | .group body => by
      rw [Piece.shapes, Shape.sourceAll_element, body.sourceAll_shapes, Form.source_group,
        Piece.print]
  | .command name known body => by
      rw [Piece.shapes, Shape.sourceAll_element, body.sourceAll_shapes, Form.source_enclosing known,
        Piece.print]
  | .environment name known body => by
      rw [Piece.shapes, Shape.sourceAll_element, body.sourceAll_shapes,
        Form.source_environment known, Piece.print]
  | .formula first more => by
      rw [Piece.shapes, Shape.sourceAll_element, Shape.sourceAll_append, first.sourceAll_shapes,
        more.sourceAll_shapes, ← String.ofList_append, Form.source_formula, Piece.print]

/-- A writing is written as its nesting says. -/
theorem Writing.sourceAll_shapes {place : Place} :
    (writing : Writing place) → Shape.sourceAll writing.shapes = String.ofList writing.print
  | .done => rfl
  | .piece first rest => by
      rw [Writing.shapes, Shape.sourceAll_append, first.sourceAll_shapes, rest.sourceAll_shapes,
        ← String.ofList_append, Writing.print]

end

/-- A text is not empty. -/
theorem Text.spaced_ne_nil (first : Word) (more : List Word) : spaced (first :: more) ≠ [] := by
  cases more with
  | nil => exact first.nonempty
  | cons second more => simp [spaced]

/-! ## From the characters to the shapes -/

mutual

/-- A piece is a passage.  In a formula, it does not begin with a delimiter. -/
theorem Piece.passage {place : Place} : (piece : Piece place) →
    ∃ token tokens, Passage place piece.print (token :: tokens) piece.shapes ∧
      (place = .formula → token.category ≠ .mathShift)
  | .text first more => by
      obtain ⟨character, rest, split⟩ :=
        List.exists_cons_of_ne_nil (Text.spaced_ne_nil first more)
      have isPlain := Text.mem_spaced character (by rw [split]; exact List.mem_cons_self)
      have passage : Passage place _ _ _ := Passage.spaced (first :: more)
      refine ⟨.initial character, rest.map Token.initial, ?_, fun _ isShift => ?_⟩
      · rw [← List.map_cons, ← split]
        exact passage
      · have isKind := (Token.initial_plain isPlain).category
        simp [isShift] at isKind
  | .group body => by
      obtain ⟨tokens, passage⟩ := body.passage
      exact ⟨_, _, passage.group, fun _ => by decide⟩
  | .command name known body => by
      obtain ⟨tokens, passage⟩ := body.passage
      exact ⟨_, _, passage.command (List.mem_append_left _ known), fun _ => by simp [Token.control]⟩
  | .environment name known body => by
      obtain ⟨tokens, passage⟩ := body.passage
      exact ⟨_, _, passage.environment (List.mem_cons_of_mem _ known), fun _ => by
        simp [Token.control]⟩
  | .formula first more => by
      obtain ⟨token, tokens, passage, notShift⟩ := first.passage
      obtain ⟨tokens', passage'⟩ := more.passage
      exact ⟨_, _, (passage.append passage').formula (notShift rfl), fun isFormula => by
        cases isFormula⟩

/-- A writing is a passage. -/
theorem Writing.passage {place : Place} : (writing : Writing place) →
    ∃ tokens, Passage place writing.print tokens writing.shapes
  | .done => ⟨[], .nil⟩
  | .piece first rest => by
      obtain ⟨token, tokens, passage, _⟩ := first.passage
      obtain ⟨tokens', passage'⟩ := rest.passage
      exact ⟨_, passage.append passage'⟩

end

open Engine

/-- A writing is parsed into a tree of the same nesting, and the source of the root is what
was written. -/
theorem Writing.source_restored (settings : Settings) (files : Files) (date : Date)
    (writing : Writing .text) {fuel : Nat} (enough : writing.print.length + 2 ≤ fuel) :
    ∃ document engine,
      parseTextWithin fuel (String.ofList writing.print)
        (fresh settings files date .empty) = .ok document engine ∧
      (document.tree Document.root).shapes = writing.shapes ∧
      document.source Document.root = String.ofList writing.print := by
  obtain ⟨tokens, passage⟩ := writing.passage
  have place : (Reader.ofText (String.ofList writing.print) "<string>").cursor.At
      (writing.print ++ []) := by
    rw [List.append_nil]
    exact Reader.at_ofList passage.cuts.plain _
  obtain ⟨after, placeAfter, ahead⟩ := passage.cuts.reads [] _ place
  rw [Reader.ahead_of_nil placeAfter, List.append_nil] at ahead
  have flow := passage.contributes [] [] [] (by simp [Place.Admits]) .done
  rw [List.append_nil, List.append_nil] at flow
  have short := passage.cuts.short
  have enoughTokens : tokens.length + 2 ≤ fuel := by omega
  obtain ⟨document, engine, parses, sound, isRoot, within⟩ := parse_mirrored
    (idle_fresh settings files date) (begins_fresh settings files date) ahead flow enoughTokens
  have nesting : document.gauged .shape Document.root = writing.shapes :=
    (sound.gauged_shape isRoot).trans within
  refine ⟨document, engine, parses, nesting, ?_⟩
  rw [Document.source_eq_sourceAll_gauged, nesting, writing.sourceAll_shapes]

/-- A formula with a group in it, in an environment behind a command. -/
def Writing.nested : Writing .text :=
  .piece (.command "emph" (by decide) (.piece (.text letter [letter]) .done))
    (.piece
      (.environment "quote" (by decide)
        (.piece (.formula (.text letter []) (.piece (.group .done) .done)) .done))
      .done)
where
  letter : Word := .a

theorem Writing.source_restored_nested :
    String.ofList nested.print =
      "\\emph\x7ba a\x7d\\begin\x7bquote\x7d$a\x7b\x7d$\\end\x7bquote\x7d" ∧
    nested.print.length + 2 ≤ 100 ∧
    ∃ document engine,
      parseTextWithin 100 (String.ofList nested.print)
        (fresh {} default ⟨2021, 3, 4⟩ .empty) = .ok document engine ∧
      (document.tree Document.root).shapes =
        [.element (.enclosing "emph") [.character 'a', .character ' ', .character 'a'],
          .element (Opening.environment "quote").form
            [.element Opening.formula.form
              [.character 'a', .element Opening.group.form []]]] ∧
      document.source Document.root = String.ofList nested.print := by
  have enough : nested.print.length + 2 ≤ 100 := by decide
  exact ⟨by decide, enough, nested.source_restored {} default ⟨2021, 3, 4⟩ enough⟩

end TexTree
