import TexTree.Proofs.Counter.Enumeration
import TexTree.Proofs.Engine.Itemizing
import TexTree.Proofs.Engine.Numbering

/-!
# Texts with lists

A text consists of characters, breaks between paragraphs and lists.  The items of a list
begin with a command without a term, and have a text each.

For such a text, this module says which tokens it has, and which numbers its items are
expected to have: the items of an enumeration are counted from one on, whatever stands in
them and between them, and what the numbers look like depends on how many enumerations are
open around.
-/

namespace TexTree

open Engine (braced)

/-- The kinds of lists. -/
inductive ListKind where
  | enumerate
  | itemize
  | description
  deriving DecidableEq, Repr

namespace ListKind

/-- The name of the environment. -/
def name : ListKind → String
  | .enumerate => "enumerate"
  | .itemize => "itemize"
  | .description => "description"

theorem name_enumerate : enumerate.name = "enumerate" := rfl

theorem name_mem_listNames (kind : ListKind) : kind.name ∈ Builtin.listNames := by
  cases kind <;> decide

theorem name_mem_enclosureNames (kind : ListKind) : kind.name ∈ Builtin.enclosureNames := by
  cases kind <;> decide

theorem name_ne_document (kind : ListKind) : kind.name ≠ "document" := by
  cases kind <;> decide

theorem name_eq_enumerate {kind : ListKind} : kind.name = "enumerate" ↔ kind = .enumerate := by
  cases kind <;> decide

/-- How many enumerations are open in a list, if so many are open around it. -/
def inside (kind : ListKind) (level : Nat) : Nat :=
  if kind = .enumerate then level + 1 else level

/-- The number of the item at a position, in so many enumerations around the list.  Only the
items of enumerations have one. -/
def number? (kind : ListKind) (level position : Nat) : Option String :=
  if kind = .enumerate then some (Enumeration.label level (Enumeration.numberAt position)) else none

end ListKind

mutual

/-- Characters, breaks between paragraphs and lists, one after the other.  There may be a
text in a list before its first item. -/
inductive ListText where
  | done
  | character (token : Token) (rest : ListText)
  | paragraph (rest : ListText)
  | list (kind : ListKind) (lead : ListText) (items : ListItems) (rest : ListText)

/-- Items, one after the other. -/
inductive ListItems where
  | done
  | item (content : ListText) (rest : ListItems)

end

mutual

/-- The tokens of a text. -/
def ListText.tokens : ListText → List Token
  | .done => []
  | .character token rest => token :: rest.tokens
  | .paragraph rest => .control "par" :: rest.tokens
  | .list kind lead items rest =>
      .control "begin" :: braced kind.name (lead.tokens ++ (items.tokens ++
        .control "end" :: braced kind.name rest.tokens))

/-- The tokens of items. -/
def ListItems.tokens : ListItems → List Token
  | .done => []
  | .item content rest => .control "item" :: (content.tokens ++ rest.tokens)

end

/-- A text would be read as the term of an item. -/
def ListText.isTerm : ListText → Bool
  | .character token rest => if token.category = .space then rest.isTerm else token.isChar '['
  | _ => false

mutual

/-- No more than four enumerations are open at any point, and no item has a term. -/
def ListText.Proper (level : Nat) : ListText → Prop
  | .done => True
  | .character token rest =>
      (token.category = .letter ∨ token.category = .other ∨ token.category = .space) ∧
        rest.Proper level
  | .paragraph rest => rest.Proper level
  | .list kind lead items rest =>
      kind.inside level ≤ 4 ∧ lead.Proper (kind.inside level) ∧
        items.Proper (kind.inside level) ∧ rest.Proper level

/-- The items have no terms. -/
def ListItems.Proper (level : Nat) : ListItems → Prop
  | .done => True
  | .item content rest => content.isTerm = false ∧ content.Proper level ∧ rest.Proper level

end

mutual

instance ListText.decidableProper (level : Nat) : (text : ListText) → Decidable (text.Proper level)
  | .done => .isTrue trivial
  | .character token rest =>
      have := rest.decidableProper level
      inferInstanceAs (Decidable ((token.category = .letter ∨ token.category = .other ∨
        token.category = .space) ∧ rest.Proper level))
  | .paragraph rest => rest.decidableProper level
  | .list kind lead items rest =>
      have := lead.decidableProper (kind.inside level)
      have := items.decidableProper (kind.inside level)
      have := rest.decidableProper level
      inferInstanceAs (Decidable (kind.inside level ≤ 4 ∧ lead.Proper (kind.inside level) ∧
        items.Proper (kind.inside level) ∧ rest.Proper level))

instance ListItems.decidableProper (level : Nat) :
    (items : ListItems) → Decidable (items.Proper level)
  | .done => .isTrue trivial
  | .item content rest =>
      have := content.decidableProper level
      have := rest.decidableProper level
      inferInstanceAs (Decidable (content.isTerm = false ∧ content.Proper level ∧
        rest.Proper level))

end

mutual

/-- The lists and items that are expected of a text, in so many enumerations. -/
def ListText.numbering (level : Nat) : ListText → List (Numbered (Option String))
  | .done => []
  | .character _ rest => rest.numbering level
  | .paragraph rest => rest.numbering level
  | .list kind lead items rest =>
      .list kind.name (lead.numbering (kind.inside level) ++ items.numbering kind level 1) ::
        rest.numbering level

/-- The items that are expected of a list, from the given position on. -/
def ListItems.numbering (kind : ListKind) (level position : Nat) :
    ListItems → List (Numbered (Option String))
  | .done => []
  | .item content rest =>
      .item (kind.number? level position) (content.numbering (kind.inside level)) ::
        rest.numbering kind level (position + 1)

end

/-! ## Spaces behind the command of an item -/

namespace ListText

/-- The text without the spaces in front. -/
def skip : ListText → ListText
  | .character token rest => if token.category = .space then rest.skip else .character token rest
  | text => text

@[simp] theorem numbering_skip (level : Nat) (text : ListText) :
    text.skip.numbering level = text.numbering level := by
  induction text using skip.induct with
  | case1 token rest isSpace ih => rw [skip, if_pos isSpace, ih, numbering]
  | case2 token rest notSpace => rw [skip, if_neg notSpace]
  | case3 text other => rw [skip]; exact other

/-- Commands are no spaces and no characters. -/
theorem isSpace_of_escape {token : Token} (isCommand : token.category = .escape) :
    Input.isSpace token = false ∧ token.isChar '[' = false := by
  simp [Input.isSpace, Token.isChar, isCommand]

/-- A text that does not begin with a character begins with a command. -/
theorem exists_command (text : ListText)
    (other : ∀ token rest, text = .character token rest → False) {first : Token}
    (behind : List Token) (isCommand : first.category = .escape) :
    ∃ next rest, text.tokens ++ first :: behind = next :: rest ∧ next.category = .escape := by
  cases text with
  | done => exact ⟨first, behind, rfl, isCommand⟩
  | character token rest => exact (other token rest rfl).elim
  | paragraph rest => exact ⟨_, _, rfl, rfl⟩
  | list kind lead items rest => exact ⟨_, _, rfl, rfl⟩

/-- The spaces before the text of an item are skipped, and what follows them is not the
beginning of a term. -/
theorem exists_dropWhile (text : ListText) (noTerm : text.isTerm = false) {first : Token}
    (behind : List Token) (isCommand : first.category = .escape) :
    ∃ next rest, (text.tokens ++ first :: behind).dropWhile Input.isSpace = next :: rest ∧
      next.isChar '[' = false ∧ next :: rest = text.skip.tokens ++ first :: behind := by
  induction text using skip.induct with
  | case1 token rest isSpace ih =>
      rw [isTerm, if_pos isSpace] at noTerm
      rw [tokens, skip, if_pos isSpace, List.cons_append,
        List.dropWhile_cons_of_pos (by simp [Input.isSpace, isSpace])]
      exact ih noTerm
  | case2 token rest notSpace =>
      rw [isTerm, if_neg notSpace] at noTerm
      rw [tokens, skip, if_neg notSpace, List.cons_append,
        List.dropWhile_cons_of_neg (by simp [Input.isSpace, notSpace])]
      exact ⟨token, _, rfl, noTerm, rfl⟩
  | case3 text other =>
      obtain ⟨next, rest, isNext, isEscape⟩ := text.exists_command other behind isCommand
      obtain ⟨notSpace, notChar⟩ := isSpace_of_escape isEscape
      rw [skip, isNext, List.dropWhile_cons_of_neg (by simp [notSpace])]
      · exact ⟨next, rest, rfl, notChar, rfl⟩
      · exact other

end ListText

end TexTree
