import TexTree.Proofs.Engine.Conservation
import TexTree.Proofs.Language.Segment

/-!
# Manuscripts

Manuscripts are documents of words, blanks and nested commands: groups, commands with
their content, declarations, environments, lists and headings at any place.

A heading may stand inside of anything and ends whatever is around it, so that the tree
of a manuscript may differ from its nesting.  But the text of the tree is always that of
the words (`Manuscript.words_kept`).
-/

namespace TexTree

open Text (Word)

/-- A space, or the end of a line.  Two ends in a row make a blank line. -/
inductive Blank where
  | space
  | lineEnd
  deriving DecidableEq, Repr

mutual

/-- What is written before the rest of a manuscript. -/
inductive Manuscript where
  | done
  | word (word : Word) (rest : Manuscript)
  | blank (blank : Blank) (rest : Manuscript)
  | group (body rest : Manuscript)
  /-- A command whose argument is its content. -/
  | command (name : String) (known : name ∈ Builtin.selfNames) (body rest : Manuscript)
  /-- A group that begins with a declaration. -/
  | declaration (name : String) (known : name ∈ Builtin.declarationNames)
    (body rest : Manuscript)
  | environment (name : String) (known : name ∈ Builtin.blockNames) (body rest : Manuscript)
  | list (before : List Blank) (items : Items) (rest : Manuscript)
  /-- A sectioning command, whose title is made of words. -/
  | heading (name : String) (known : name ∈ Builtin.sectionNames) (title : List Word)
    (rest : Manuscript)

/-- The items of a list. -/
inductive Items where
  | done
  | item (body : Manuscript) (rest : Items)

end

namespace Blank

/-- The character of a blank. -/
def character : Blank → Char
  | .space => ' '
  | .lineEnd => '\n'

theorem segment (blank : Blank) {admits : Openings Char → Prop} :
    Segment admits [blank.character] [] := by
  cases blank with
  | space => exact Segment.space
  | lineEnd => exact Segment.lineEnd

theorem segment_all (blanks : List Blank) {admits : Openings Char → Prop} :
    Segment admits (blanks.map character) [] := by
  induction blanks with
  | nil => exact Segment.nil
  | cons blank rest ih => exact blank.segment.append ih

end Blank

mutual

/-- The characters of a manuscript. -/
def Manuscript.print : Manuscript → List Char
  | .done => []
  | .word word rest => word.characters ++ rest.print
  | .blank blank rest => [blank.character] ++ rest.print
  | .group body rest => Written.group body.print ++ rest.print
  | .command name _ body rest => Written.command name body.print ++ rest.print
  | .declaration name _ body rest =>
      Written.group (Written.bare name ++ body.print) ++ rest.print
  | .environment name _ body rest => Written.environment name body.print ++ rest.print
  | .list before items rest =>
      Written.environment "itemize" (before.map Blank.character ++ items.print) ++ rest.print
  | .heading name _ title rest => Written.command name (Text.spaced title) ++ rest.print

/-- The characters of items. -/
def Items.print : Items → List Char
  | .done => []
  | .item body rest => Written.bare "item" ++ (body.print ++ rest.print)

end

mutual

/-- The words of a manuscript, one after the other.  Titles do not count. -/
def Manuscript.words : Manuscript → List Char
  | .done => []
  | .word word rest => word.characters ++ rest.words
  | .blank _ rest => rest.words
  | .group body rest => body.words ++ rest.words
  | .command _ _ body rest => body.words ++ rest.words
  | .declaration _ _ body rest => body.words ++ rest.words
  | .environment _ _ body rest => body.words ++ rest.words
  | .list _ items rest => items.words ++ rest.words
  | .heading _ _ _ rest => rest.words

/-- The words of items. -/
def Items.words : Items → List Char
  | .done => []
  | .item body rest => body.words ++ rest.words

end

mutual

/-- A manuscript contributes its words, wherever it stands. -/
theorem Manuscript.segment : (manuscript : Manuscript) → (admits : Openings Char → Prop) →
    Segment admits manuscript.print manuscript.words
  | .done, _ => Segment.nil
  | .word word rest, admits => (Segment.word word).append (rest.segment admits)
  | .blank blank rest, admits => blank.segment.append (rest.segment admits)
  | .group body rest, admits =>
      ((body.segment fun _ => True).group fun _ _ _ => trivial).append (rest.segment admits)
  | .command _ known body rest, admits =>
      ((body.segment fun _ => True).command known fun _ _ _ => trivial).append
        (rest.segment admits)
  | .declaration _ known body rest, admits =>
      (((Segment.declaration known).append (body.segment fun _ => True)).group
        fun _ _ _ => trivial).append (rest.segment admits)
  | .environment _ known body rest, admits =>
      ((body.segment fun _ => True).environment (List.mem_cons_of_mem _ known)
        fun _ _ _ => trivial).append (rest.segment admits)
  | .list before items rest, admits =>
      (((Blank.segment_all before).append items.segment).environment List.mem_cons_self
        fun stack after _ => ⟨after, stack, rfl⟩).append (rest.segment admits)
  | .heading _ known title rest, admits => by
      have isTitle : Segment (fun _ => True) (Text.spaced title)
        (title.flatMap Word.characters) := Segment.spaced title
      exact (isTitle.heading known fun _ _ _ => trivial).append (rest.segment admits)

/-- Items contribute their words inside of a list. -/
theorem Items.segment : (items : Items) → Segment Segment.InList items.print items.words
  | .done => Segment.nil
  | .item body rest => Segment.item.append ((body.segment _).append rest.segment)

end

open Engine

/-- A manuscript is parsed, and its text is that of its words in their order.  No word gets
lost, and none is repeated or moved. -/
theorem Manuscript.words_kept (settings : Settings) (files : Files) (date : Date)
    (manuscript : Manuscript) {fuel : Nat} (enough : 2 * manuscript.print.length + 2 ≤ fuel) :
    ∃ document engine,
      parseTextWithin fuel (String.ofList manuscript.print)
        (fresh settings files date .empty) = .ok document engine ∧
      Text.visible (document.textContent Document.root).toList = manuscript.words := by
  have segment := manuscript.segment fun _ => True
  have place : (Reader.ofText (String.ofList manuscript.print) "<string>").cursor.At
      (manuscript.print ++ []) := by
    rw [List.append_nil]
    exact Reader.at_ofList segment.plain _
  obtain ⟨tokens, after, placeAfter, ahead, short, _, flow⟩ := segment.reads [] _ place
  rw [Reader.ahead_of_nil placeAfter, List.append_nil] at ahead
  have flows := flow [] [] [] trivial .done
  rw [List.append_nil, List.append_nil] at flows
  exact parse_visible (idle_fresh settings files date) (begins_fresh settings files date) ahead
    flows (Nat.le_trans (by omega) enough)

/-- A heading in a group in an item, and a word behind the list. -/
def Manuscript.interrupted : Manuscript :=
  .list []
    (.item
      (.word .a
        (.group
          (.heading "section" (by decide) [⟨['t'], by decide +kernel, by simp⟩]
            (.word ⟨['b'], by decide +kernel, by simp⟩ .done))
          (.word ⟨['c'], by decide +kernel, by simp⟩ .done)))
      .done)
    (.word ⟨['d'], by decide +kernel, by simp⟩ .done)

theorem Manuscript.words_kept_interrupted :
    String.ofList interrupted.print =
      "\\begin\x7bitemize\x7d\\item a\x7b\\section\x7bt\x7db\x7dc\\end\x7bitemize\x7dd" ∧
    2 * interrupted.print.length + 2 ≤ 200 ∧
    ∃ document engine,
      parseTextWithin 200 (String.ofList interrupted.print)
        (fresh {} default ⟨2021, 3, 4⟩ .empty) = .ok document engine ∧
      Text.visible (document.textContent Document.root).toList = ['a', 'b', 'c', 'd'] := by
  have enough : 2 * interrupted.print.length + 2 ≤ 200 := by decide
  exact ⟨by decide, enough, interrupted.words_kept {} default ⟨2021, 3, 4⟩ enough⟩

end TexTree
