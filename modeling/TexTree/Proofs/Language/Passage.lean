import TexTree.Proofs.Document.Shape
import TexTree.Proofs.Language.Segment

/-!
# Passages of sources that can be restored

A passage is a part of a source that is cut into the same tokens wherever it stands, and
whose tokens contribute the same shapes (`Passage`).  What a passage looks like in the
tree is thereby known from what it is written with.

A formula must not stand in another one, so that it depends on the place of a passage
whether formulas are allowed in it.
-/

namespace TexTree

/-- Whether something is written inside of a formula. -/
inductive Place where
  | text
  | formula
  deriving DecidableEq, Repr

namespace Place

/-- The place may be inside of the given openings. -/
def Admits : Place → Openings Shape → Prop
  | .text, stack => ∀ entry ∈ stack, entry.1 ≠ .formula
  | .formula, _ => True

/-- What is no formula may be opened anywhere. -/
theorem Admits.open {place : Place} {stack : Openings Shape} (admits : place.Admits stack)
    {opening : Opening} (other : opening ≠ .formula) (after : List Shape) :
    place.Admits ((opening, after) :: stack) := by
  cases place with
  | formula => trivial
  | text =>
      intro entry member
      rcases List.mem_cons.mp member with rfl | outer
      · exact other
      · exact admits entry outer

end Place

namespace Token

/-- The token of a character with its initial category. -/
def initial (character : Char) : Token :=
  .ofChar character (CategoryTable.initial.category character)

/-- The tokens of words and of the spaces between them stand for themselves. -/
theorem initial_plain {character : Char}
    (isPlain : character ∈ Text.wordCharacters ∨ character = ' ') :
    (initial character).Plain := by
  rcases isPlain with isWord | rfl
  · have facts : (Text.wordCharacters.all fun character => character != '[') = true := by
      decide +kernel
    have notBracket : character ≠ '[' :=
      bne_iff_ne.mp (List.all_eq_true.mp facts character isWord)
    exact Token.ofChar_plain (CategoryTable.category_word isWord) notBracket
  · rw [initial, CategoryTable.category_space]
    exact ⟨.inr (.inr rfl), fun _ => rfl, by decide⟩

end Token

namespace Input

/-- Plain tokens are no braces. -/
theorem Balanced.plain {tokens : List Token} (plain : ∀ token ∈ tokens, token.Plain) :
    Balanced tokens := by
  induction tokens with
  | nil => exact .nil
  | cons token tokens ih =>
      have isKind := (plain token List.mem_cons_self).category
      have single : Balanced [token] := by
        apply Balanced.other
        all_goals rcases isKind with equal | equal | equal
        all_goals simp [equal]
      exact single.append (ih fun other member => plain other (List.mem_cons_of_mem _ member))

end Input

namespace Reader

variable {reader : Reader} {rest : List Char}

/-- The characters of a word give one token each, and the reader is in the middle of a line
behind it. -/
theorem ahead_characters {characters : List Char} (nonempty : characters ≠ [])
    (isWord : ∀ character ∈ characters, character ∈ Text.wordCharacters)
    (place : reader.cursor.At (characters ++ rest)) :
    ∃ after : Reader,
      reader.ahead .initial = characters.map Token.initial ++ after.ahead .initial ∧
      after.Midline rest := by
  induction characters generalizing reader with
  | nil => exact absurd rfl nonempty
  | cons first more ih =>
      have isPlain : isPlain (CategoryTable.initial.category first) := by
        rcases CategoryTable.category_word (isWord first List.mem_cons_self) with equal | equal
        all_goals rw [equal]; rfl
      obtain ⟨between, ahead, midline⟩ := ahead_character rfl isPlain place
      cases more with
      | nil => exact ⟨between, ahead, midline⟩
      | cons second more =>
          obtain ⟨after, aheadBetween, behind⟩ := ih (by simp)
            (fun other member => isWord other (List.mem_cons_of_mem _ member)) midline.place
          refine ⟨after, ?_, behind⟩
          rw [ahead, aheadBetween]
          rfl

/-- Spaced words give one token for each character, since the spaces stand behind words. -/
theorem ahead_spaced (words : List Text.Word)
    (place : reader.cursor.At (Text.spaced words ++ rest)) :
    ∃ after : Reader, after.cursor.At rest ∧
      reader.ahead .initial =
        (Text.spaced words).map Token.initial ++ after.ahead .initial := by
  fun_induction Text.spaced words generalizing reader with
  | case1 => exact ⟨reader, place, rfl⟩
  | case2 word =>
      obtain ⟨after, ahead, midline⟩ := ahead_characters word.nonempty word.mem_wordCharacters place
      exact ⟨after, midline.place, ahead⟩
  | case3 word words _ ih =>
      have isSpace := CategoryTable.category_space
      rw [List.append_assoc] at place
      obtain ⟨behindWord, ahead, midline⟩ :=
        ahead_characters word.nonempty word.mem_wordCharacters place
      obtain ⟨behindSpace, placeBehind, _, isToken, _⟩ := ahead_space isSpace midline.place
      obtain ⟨after, placeAfter, aheadBehind⟩ := ih placeBehind
      refine ⟨after, placeAfter, ?_⟩
      rw [ahead, isToken midline.state, aheadBehind, List.map_append, List.append_assoc,
        List.map_cons, Token.initial, isSpace]
      rfl

end Reader

namespace Text

/-- Spaced words are made of the characters of words and of spaces. -/
theorem mem_spaced {words : List Word} :
    ∀ character ∈ spaced words, character ∈ wordCharacters ∨ character = ' ' := by
  fun_induction spaced words with
  | case1 => simp
  | case2 word => exact fun character member => .inl (word.mem_wordCharacters character member)
  | case3 word words _ ih =>
      intro character member
      rcases List.mem_append.mp member with inWord | behind
      · exact .inl (word.mem_wordCharacters character inWord)
      · rcases List.mem_cons.mp behind with isSpace | later
        · exact .inr isSpace
        · exact ih character later

end Text

/-- Characters that stand for themselves contribute themselves. -/
theorem Contributes.initial {admits : Openings Shape → Prop} {characters : List Char}
    (isPlain : ∀ character ∈ characters, character ∈ Text.wordCharacters ∨ character = ' ') :
    Contributes .shape false admits (characters.map Token.initial) (Shape.ofText characters) := by
  induction characters with
  | nil => exact nil
  | cons first rest ih =>
      have single : Contributes .shape false admits _ _ :=
        .character (Token.initial_plain (isPlain first List.mem_cons_self))
      have spelled : Gauge.shape.spelled (Token.initial first).text = [.character first] := by
        simp [Gauge.shape, Token.initial, Token.ofChar, Shape.ofText]
      rw [spelled] at single
      exact single.append (ih fun other member => isPlain other (List.mem_cons_of_mem _ member))

/-- The characters are cut into the tokens, which contribute the shapes at the place. -/
structure Passage (place : Place) (characters : List Char) (tokens : List Token)
    (shapes : List Shape) : Prop where
  cuts : Cuts characters tokens
  balanced : Input.Balanced tokens
  contributes : Contributes .shape false place.Admits tokens shapes

namespace Passage

variable {place : Place} {characters first second : List Char} {tokens tokens' : List Token}
  {shapes shapes' : List Shape} {name : String}

theorem nil : Passage place [] [] [] := ⟨.nil, .nil, .nil⟩

theorem append (one : Passage place first tokens shapes)
    (two : Passage place second tokens' shapes') :
    Passage place (first ++ second) (tokens ++ tokens') (shapes ++ shapes') where
  cuts := one.cuts.append two.cuts
  balanced := one.balanced.append two.balanced
  contributes := one.contributes.append two.contributes

/-- Spaced words are a text. -/
theorem spaced (words : List Text.Word) :
    Passage place (Text.spaced words) ((Text.spaced words).map Token.initial)
      (Shape.ofText (Text.spaced words)) where
  cuts := by
    refine ⟨?_, by rw [List.length_map], fun rest reader place => reader.ahead_spaced words place⟩
    intro member
    have facts : '\r' ∉ Text.wordCharacters ∧ '\r' ≠ ' ' := by decide +kernel
    rcases Text.mem_spaced _ member with isWord | isSpace
    · exact facts.1 isWord
    · exact facts.2 isSpace
  balanced := by
    apply Input.Balanced.plain
    intro token member
    obtain ⟨character, isPart, rfl⟩ := List.mem_map.mp member
    exact Token.initial_plain (Text.mem_spaced character isPart)
  contributes := .initial Text.mem_spaced

theorem group (body : Passage place characters tokens shapes) :
    Passage place (Written.group characters) (.beginGroup :: (tokens ++ [.endGroup]))
      [.element Opening.group.form shapes] where
  cuts := body.cuts.group
  balanced := body.balanced.group
  contributes := body.contributes.group fun _ after admits => admits.open (by decide) after

/-- A command with its content. -/
theorem command (known : name ∈ Builtin.selfNames)
    (body : Passage place characters tokens shapes) :
    Passage place (Written.command name characters)
      (.control name :: .beginGroup :: (tokens ++ [.endGroup]))
      [.element (.enclosing name) shapes] where
  cuts := .command (Builtin.isControlWord_of_mem_selfNames name known) body.cuts
  balanced := body.balanced.group.control name
  contributes := body.contributes.command known body.balanced
    fun _ after admits => admits.open (by decide) after

/-- An environment. -/
theorem environment (known : name ∈ Builtin.environmentNames)
    (body : Passage place characters tokens shapes) :
    Passage place (Written.environment name characters)
      (Input.named "begin" name ++ (tokens ++ Input.named "end" name))
      [.element (Opening.environment name).form shapes] where
  cuts := .environment (Builtin.isControlWord_of_mem_environmentNames name known) body.cuts
  balanced := body.balanced.environment name
  contributes := body.contributes.environment known
    fun _ after admits => admits.open (by simp) after

/-- A formula. -/
theorem formula {token : Token} (notShift : token.category ≠ .mathShift)
    (body : Passage .formula characters (token :: tokens) shapes) :
    Passage .text (['$'] ++ (characters ++ ['$']))
      (.mathShift :: (token :: tokens ++ [.mathShift]))
      [.element Opening.formula.form shapes] where
  cuts := Cuts.mathShift.append (body.cuts.append Cuts.mathShift)
  balanced := by
    have single : Input.Balanced [Token.mathShift] := .other (by decide) (by decide)
    exact single.append (body.balanced.append single)
  contributes := body.contributes.formula notShift (fun _ _ _ => trivial)
    fun _ admits => admits

end Passage

end TexTree
