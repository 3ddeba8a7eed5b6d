import TexTree.Proofs.Document.Outline
import TexTree.Proofs.Language.Passage

/-!
# Environments of a user, and bodies that are written with them

A user gives an environment a name, a code at its beginning and a code at its end
(`Custom`).  A body is made of words and of pairs `\begin{name}`, `\end{name}` around other
bodies (`Body`).

This module says how definitions and bodies are written and into which tokens they are
cut, and what is expected of a body: its text, with the codes of the environments in it,
and the outline of its elements.
-/

namespace TexTree

open Text (Word)

namespace Text

/-- A space, or nothing. -/
def gap (isThere : Bool) : List Char := if isThere then [' '] else []

theorem mem_gap {isThere : Bool} : ∀ character ∈ gap isThere, character = ' ' := by
  cases isThere <;> simp [gap]

end Text

/-- An environment as a user defines it.  Its codes are letters. -/
structure Custom where
  name : String
  /-- The code at the beginning. -/
  opening : List Char
  /-- The code at the end. -/
  closing : List Char
  isName : Text.isControlWord name
  openingLetters : opening.all CategoryTable.asciiLetters.contains
  closingLetters : closing.all CategoryTable.asciiLetters.contains

namespace Custom

variable (environment : Custom)

theorem mem_opening : ∀ letter ∈ environment.opening, letter ∈ CategoryTable.asciiLetters := by
  simpa using environment.openingLetters

theorem mem_closing : ∀ letter ∈ environment.closing, letter ∈ CategoryTable.asciiLetters := by
  simpa using environment.closingLetters

/-- How the environment is defined. -/
def print : List Char :=
  Written.command "newenvironment" environment.name.toList ++
    (Written.group environment.opening ++ Written.group environment.closing)

/-- A code in braces. -/
def codeTokens (code : List Char) : List Token :=
  .beginGroup :: (code.map Token.letter ++ [.endGroup])

/-- The tokens of the definition. -/
def tokens : List Token :=
  Input.named "newenvironment" environment.name ++
    (codeTokens environment.opening ++ codeTokens environment.closing)

end Custom

mutual

/-- A part of a body.  A space may stand behind a word and behind each of the two commands
of a pair. -/
inductive Part where
  | word (word : Word) (isSpaced : Bool)
  | pair (environment : Custom) (isSpacedInside : Bool) (content : Body) (isSpaced : Bool)

/-- Parts one after the other. -/
inductive Body where
  | done
  | part (first : Part) (rest : Body)

end

mutual

/-- The characters of a part. -/
def Part.print : Part → List Char
  | .word word isSpaced => word.characters ++ Text.gap isSpaced
  | .pair environment isSpacedInside content isSpaced =>
      (Written.command "begin" environment.name.toList ++ Text.gap isSpacedInside) ++
        (content.print ++ (Written.command "end" environment.name.toList ++ Text.gap isSpaced))

/-- The characters of a body. -/
def Body.print : Body → List Char
  | .done => []
  | .part first rest => first.print ++ rest.print

end

mutual

/-- The tokens of a part. -/
def Part.tokens : Part → List Token
  | .word word isSpaced => (word.characters ++ Text.gap isSpaced).map Token.initial
  | .pair environment isSpacedInside content isSpaced =>
      (Input.named "begin" environment.name ++ (Text.gap isSpacedInside).map Token.initial) ++
        (content.tokens ++
          (Input.named "end" environment.name ++ (Text.gap isSpaced).map Token.initial))

/-- The tokens of a body. -/
def Body.tokens : Body → List Token
  | .done => []
  | .part first rest => first.tokens ++ rest.tokens

end

mutual

/-- The number of the items of a part, where a pair is one. -/
def Part.items : Part → Nat
  | .word word isSpaced => (word.characters ++ Text.gap isSpaced).length
  | .pair _ _ _ isSpaced => 1 + (Text.gap isSpaced).length

/-- The number of the items of a body. -/
def Body.items : Body → Nat
  | .done => 0
  | .part first rest => first.items + rest.items

end

mutual

/-- The environments in a part belong to a family. -/
def Part.Uses (family : List Custom) : Part → Prop
  | .word _ _ => True
  | .pair environment _ content _ => environment ∈ family ∧ content.Uses family

/-- The environments in a body belong to a family. -/
def Body.Uses (family : List Custom) : Body → Prop
  | .done => True
  | .part first rest => first.Uses family ∧ rest.Uses family

end

/-! ## What is expected -/

mutual

/-- The text of a part: that of a pair stands between the codes of its environment. -/
def Part.text : Part → List Char
  | .word word isSpaced => word.characters ++ Text.gap isSpaced
  | .pair environment isSpacedInside content isSpaced =>
      (environment.opening ++ (Text.gap isSpacedInside ++ content.text) ++ environment.closing) ++
        Text.gap isSpaced

/-- The text of a body. -/
def Body.text : Body → List Char
  | .done => []
  | .part first rest => first.text ++ rest.text

end

mutual

/-- The elements of a part: a pair is one, with the pairs directly inside of it. -/
def Part.outline : Part → List Outline
  | .word _ _ => []
  | .pair environment isSpacedInside content _ =>
      [.node environment.name .opening
        (String.ofList
          (environment.opening ++ (Text.gap isSpacedInside ++ content.text) ++
            environment.closing))
        content.outline]

/-- The elements of a body. -/
def Body.outline : Body → List Outline
  | .done => []
  | .part first rest => first.outline ++ rest.outline

end

mutual

/-- The shapes of a part. -/
def Part.shapes : Part → List Shape
  | .word word isSpaced => Shape.ofText (word.characters ++ Text.gap isSpaced)
  | .pair environment isSpacedInside content isSpaced =>
      .element (Opening.environment environment.name).form
          (Shape.ofText environment.opening ++
            (Shape.ofText (Text.gap isSpacedInside) ++ content.shapes) ++
            Shape.ofText environment.closing) ::
        Shape.ofText (Text.gap isSpaced)

/-- The shapes of a body. -/
def Body.shapes : Body → List Shape
  | .done => []
  | .part first rest => first.shapes ++ rest.shapes

end

mutual

theorem Part.textAll_shapes : (part : Part) → Shape.textAll part.shapes = part.text
  | .word _ _ => Shape.textAll_ofText _
  | .pair environment isSpacedInside content isSpaced => by
      have inside := content.textAll_shapes
      rw [Part.shapes, Part.text, Shape.textAll, Shape.textAll_ofText, Shape.text]
      simp only [Shape.textAll_append, Shape.textAll_ofText, inside]

/-- The text of a body is that of its shapes. -/
theorem Body.textAll_shapes : (body : Body) → Shape.textAll body.shapes = body.text
  | .done => rfl
  | .part first rest => by
      rw [Body.shapes, Body.text, Shape.textAll_append, first.textAll_shapes, rest.textAll_shapes]

end

mutual

theorem Part.outlineAll_shapes : (part : Part) → Shape.outlineAll part.shapes = part.outline
  | .word _ _ => Shape.outlineAll_ofText _
  | .pair environment isSpacedInside content isSpaced => by
      have inside := content.outlineAll_shapes
      have isText := content.textAll_shapes
      rw [Part.shapes, Part.outline, Shape.outlineAll, Shape.outlineAll_ofText, Shape.outline]
      simp only [Shape.textAll_append, Shape.textAll_ofText, Shape.outlineAll_append,
        Shape.outlineAll_ofText, inside, isText, List.nil_append, List.append_nil]
      rfl

/-- The outline of a body is that of its shapes. -/
theorem Body.outlineAll_shapes : (body : Body) → Shape.outlineAll body.shapes = body.outline
  | .done => rfl
  | .part first rest => by
      rw [Body.shapes, Body.outline, Shape.outlineAll_append, first.outlineAll_shapes,
        rest.outlineAll_shapes]

end

/-! ## Cutting -/

/-- The characters are cut into the given tokens wherever they stand, and the reader is in
the middle of a line behind them. -/
structure Halts (characters : List Char) (tokens : List Token) : Prop where
  plain : '\r' ∉ characters
  short : tokens.length ≤ characters.length
  reads : ∀ (rest : List Char) (reader : Reader), reader.cursor.At (characters ++ rest) →
    ∃ after : Reader, after.Midline rest ∧
      reader.ahead .initial = tokens ++ after.ahead .initial

namespace Halts

variable {characters first second : List Char} {tokens tokens' : List Token}

theorem cuts (halts : Halts characters tokens) : Cuts characters tokens := by
  refine ⟨halts.plain, halts.short, ?_⟩
  intro rest reader place
  obtain ⟨after, midline, ahead⟩ := halts.reads rest reader place
  exact ⟨after, midline.place, ahead⟩

/-- Only what stands last counts. -/
theorem behind (cuts : Cuts first tokens) (halts : Halts second tokens') :
    Halts (first ++ second) (tokens ++ tokens') := by
  refine ⟨(cuts.append halts.cuts).plain, (cuts.append halts.cuts).short, ?_⟩
  intro rest reader place
  rw [List.append_assoc] at place
  obtain ⟨between, placeBetween, ahead⟩ := cuts.reads _ reader place
  obtain ⟨after, midline, aheadBetween⟩ := halts.reads rest between placeBetween
  exact ⟨after, midline, by rw [ahead, aheadBetween, List.append_assoc]⟩

theorem endGroup : Halts ['\x7d'] [.endGroup] := by
  refine ⟨Cuts.endGroup.plain, Cuts.endGroup.short, ?_⟩
  intro rest reader place
  have isEnd : CategoryTable.initial.category '\x7d' = .endGroup :=
    CategoryTable.category_special (by decide)
  obtain ⟨after, ahead, midline⟩ := Reader.ahead_character isEnd rfl place
  exact ⟨after, midline, ahead⟩

theorem word (word : Word) : Halts word.characters (word.characters.map Token.initial) := by
  have spaced : Passage .text _ _ _ := Passage.spaced [word]
  refine ⟨spaced.cuts.plain, spaced.cuts.short, ?_⟩
  intro rest reader place
  obtain ⟨after, ahead, midline⟩ :=
    Reader.ahead_characters word.nonempty word.mem_wordCharacters place
  exact ⟨after, midline, ahead⟩

/-- A command with a name in braces. -/
theorem named {control name : String} (isWord : Text.isControlWord control)
    (isName : Text.isControlWord name) :
    Halts (Written.command control name.toList) (Input.named control name) :=
  behind (.opening isWord) (behind (.letters (Text.mem_asciiLetters isName)) endGroup)

/-- A space behind the characters is a token. -/
theorem gap (halts : Halts characters tokens) (isThere : Bool) :
    Cuts (characters ++ Text.gap isThere) (tokens ++ (Text.gap isThere).map Token.initial) := by
  cases isThere with
  | false =>
      rw [Text.gap, if_neg (by simp), List.append_nil, List.map_nil, List.append_nil]
      exact halts.cuts
  | true =>
      have isSpace := CategoryTable.category_space
      have isInitial : Token.initial ' ' = .space := by
        rw [Token.initial, isSpace]
        rfl
      have plain := halts.plain
      have short := halts.short
      rw [Text.gap, if_pos rfl, List.map_singleton, isInitial]
      refine ⟨by simpa using plain, by simpa using short, ?_⟩
      intro rest reader place
      rw [List.append_assoc] at place
      obtain ⟨between, midline, ahead⟩ := halts.reads _ reader place
      obtain ⟨after, placeAfter, _, isToken, _⟩ := Reader.ahead_space isSpace midline.place
      refine ⟨after, placeAfter, ?_⟩
      rw [ahead, isToken midline.state, List.append_assoc, List.singleton_append]

end Halts

/-- A definition is cut into its tokens. -/
theorem Custom.cuts (environment : Custom) : Cuts environment.print environment.tokens := by
  have opening := (Cuts.letters environment.mem_opening).group
  have closing := (Cuts.letters environment.mem_closing).group
  exact (Cuts.named (by decide +kernel) environment.isName).append (opening.append closing)

mutual

theorem Part.cuts : (part : Part) → Cuts part.print part.tokens
  | .word word isSpaced => by
      rw [Part.print, Part.tokens, List.map_append]
      exact (Halts.word word).gap isSpaced
  | .pair environment isSpacedInside content isSpaced => by
      have isBegin : Text.isControlWord "begin" := by decide +kernel
      have isEnd : Text.isControlWord "end" := by decide +kernel
      have opens := (Halts.named isBegin environment.isName).gap isSpacedInside
      have closes := (Halts.named isEnd environment.isName).gap isSpaced
      exact opens.append (content.cuts.append closes)

/-- A body is cut into its tokens. -/
theorem Body.cuts : (body : Body) → Cuts body.print body.tokens
  | .done => .nil
  | .part first rest => first.cuts.append rest.cuts

end

end TexTree
