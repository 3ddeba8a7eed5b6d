import TexTree.Proofs.Input.Stream
import TexTree.Proofs.Input.Tables

/-!
# Cutting a text into tokens

A cursor stands before the characters that are left (`Cursor.At`).  What becomes
of the next character depends on its category and on the state of the reader; for
each kind of character this module says which tokens are ahead of a reader, in
terms of the tokens that are ahead of it behind that character.
-/

namespace TexTree

namespace Text

/-- A name can be that of a control word. -/
def isControlWord (name : String) : Bool :=
  !name.toList.isEmpty && name.toList.all CategoryTable.asciiLetters.contains

theorem ne_nil_of_isControlWord {name : String} (isWord : isControlWord name) :
    name.toList ≠ [] := by
  simpa using (Bool.and_eq_true_iff.mp isWord).1

theorem mem_asciiLetters {name : String} (isWord : isControlWord name) :
    ∀ letter ∈ name.toList, letter ∈ CategoryTable.asciiLetters := by
  simpa using (Bool.and_eq_true_iff.mp isWord).2

end Text

namespace CategoryTable

theorem category_letter {character : Char} (isLetter : character ∈ asciiLetters) :
    initial.category character = .letter :=
  (category_assignAll_map _ asciiLetters .letter character).trans (if_pos isLetter)

/-- Characters that are neither letters nor ordinary ones at the start, with their categories. -/
def specialCharacters : List (Char × Category) :=
  [('\\', .escape), ('\x7b', .beginGroup), ('\x7d', .endGroup), ('$', .mathShift),
    ('\n', .endOfLine), ('\r', .endOfLine), ('^', .superscript), (' ', .space), ('~', .active)]

theorem category_special {character : Char} {category : Category}
    (isSpecial : (character, category) ∈ specialCharacters) :
    initial.category character = category := by
  have listed : (specialCharacters.all fun entry => initial.category entry.1 == entry.2) =
      true := by decide +kernel
  simpa using List.all_eq_true.mp listed _ isSpecial

theorem category_space : initial.category ' ' = .space := category_special (by decide)

theorem category_tie : initial.category '~' = .active := category_special (by decide)

theorem category_backslash : initial.category '\\' = .escape := category_special (by decide)

end CategoryTable

namespace Cursor

/-- The cursor stands before the given characters.  A line feed ends its line. -/
structure At (cursor : Cursor) (characters : List Char) : Prop where
  left : cursor.lines.flatten = characters
  ended : ∀ line ∈ cursor.lines, '\n' ∉ line.dropLast

theorem settleLines_flatten (lines : List (List Char)) (line column : Nat) :
    (settleLines lines line column).lines.flatten = lines.flatten := by
  fun_induction settleLines lines line column with
  | case1 rest line column ih => simpa using ih
  | case2 lines line column _ => rfl

theorem mem_of_mem_settleLines {lines : List (List Char)} {line column : Nat} {some : List Char}
    (member : some ∈ (settleLines lines line column).lines) : some ∈ lines := by
  fun_induction settleLines lines line column with
  | case1 rest line column ih => exact List.mem_cons_of_mem _ (ih member)
  | case2 lines line column _ => exact member

theorem settleLines_head (lines : List (List Char)) (line column : Nat) :
    (settleLines lines line column).lines = [] ∨
      ∃ character rest more,
        (settleLines lines line column).lines = (character :: rest) :: more := by
  fun_induction settleLines lines line column with
  | case1 rest line column ih => exact ih
  | case2 lines line column notEmpty =>
      rcases lines with _ | ⟨_ | ⟨character, rest⟩, more⟩
      · exact .inl rfl
      · exact absurd rfl (notEmpty more)
      · exact .inr ⟨character, rest, more, rfl⟩

variable {cursor : Cursor} {character : Char} {characters : List Char}

theorem next?_of_nil (place : cursor.At []) : cursor.next? = none := by
  have flat := settleLines_flatten cursor.lines cursor.line cursor.column
  rw [place.left] at flat
  rcases settleLines_head cursor.lines cursor.line cursor.column with empty | ⟨_, _, _, equal⟩
  · simp [next?, settle, empty]
  · rw [equal] at flat
    simp at flat

/-- Reading takes the next character. -/
theorem next?_of_cons (place : cursor.At (character :: characters)) :
    ∃ rest, cursor.next? = some (character, rest) ∧ rest.At characters ∧
      (character = '\n' → rest.skipRestOfLine.At characters) := by
  have flat := settleLines_flatten cursor.lines cursor.line cursor.column
  rw [place.left] at flat
  have ended : ∀ line ∈ cursor.settle.lines, '\n' ∉ line.dropLast :=
    fun line member => place.ended line (mem_of_mem_settleLines member)
  rcases settleLines_head cursor.lines cursor.line cursor.column with
    empty | ⟨first, rest, more, equal⟩
  · rw [empty] at flat
    simp at flat
  · have settled : cursor.settle.lines = (first :: rest) :: more := equal
    rw [equal] at flat
    simp only [List.flatten_cons, List.cons_append, List.cons.injEq] at flat
    obtain ⟨rfl, tail⟩ := flat
    refine ⟨⟨rest :: more, cursor.settle.line, cursor.settle.column + 1⟩, ?_, ⟨tail, ?_⟩, ?_⟩
    · simp [next?, settled]
    · intro line member
      rcases List.mem_cons.mp member with rfl | later
      · have whole := ended (first :: line) (by simp [settled])
        cases line with
        | nil => simp
        | cons second line =>
            intro inside
            exact whole (List.mem_cons_of_mem _ inside)
      · exact ended line (by simp [settled, later])
    · intro isLineEnd
      -- A line feed is the last character of its line.
      have last : rest = [] := by
        cases rest with
        | nil => rfl
        | cons second rest =>
            refine absurd ?_ (ended (first :: second :: rest) (by simp [settled]))
            simp [isLineEnd]
      subst last
      refine ⟨?_, ?_⟩
      · simpa [skipRestOfLine] using tail
      · intro line member
        simp only [skipRestOfLine, List.mem_cons] at member
        rcases member with rfl | later
        · simp
        · exact ended line (by simp [settled, later])

/-- An ordinary character is read with its category. -/
theorem nextChar?_of_cons {table : CategoryTable} {category : Category}
    (isCategory : table.category character = category) (notMark : category ≠ .superscript)
    (kept : isDropped category = false) (place : cursor.At (character :: characters)) :
    ∃ rest, cursor.nextChar? table = some (character, category, rest) ∧ rest.At characters ∧
      (character = '\n' → rest.skipRestOfLine.At characters) := by
  obtain ⟨rest, found, behind, lineEnd⟩ := next?_of_cons place
  refine ⟨rest, ?_, behind, lineEnd⟩
  have step : cursor.step? table = some (character, category, rest) := by
    rw [step?, found]
    dsimp only
    rw [isCategory]
    split
    · exact absurd rfl notMark
    · rfl
  rw [nextChar?]
  split
  · next none =>
      rw [step] at none
      cases none
  · next equal =>
      rw [step] at equal
      cases equal
      simp [kept]

/-- A superscript character that is not doubled introduces no character code. -/
theorem coded?_of_head? {mark : Char} (place : cursor.At characters)
    (single : characters.head? ≠ some mark) : cursor.coded? mark = none := by
  unfold coded?
  split
  · next again first rest lines equal =>
      have notMark : again ≠ mark := by
        rintro rfl
        apply single
        rw [← place.left, equal]
        rfl
      simp [notMark]
  · rfl

/-- Such a character is read with its category. -/
theorem nextChar?_of_mark {table : CategoryTable} {mark : Char}
    (isMark : table.category mark = .superscript) (single : characters.head? ≠ some mark)
    (place : cursor.At (mark :: characters)) :
    ∃ rest, cursor.nextChar? table = some (mark, .superscript, rest) ∧ rest.At characters := by
  obtain ⟨rest, found, behind, _⟩ := next?_of_cons place
  refine ⟨rest, ?_, behind⟩
  have step : cursor.step? table = some (mark, .superscript, rest) := by
    rw [step?, found]
    dsimp only
    rw [isMark, coded?_of_head? behind single]
  rw [nextChar?]
  split
  · next none =>
      rw [step] at none
      cases none
  · next equal =>
      rw [step] at equal
      cases equal
      simp [isDropped]

theorem nextChar?_of_nil {table : CategoryTable} (place : cursor.At []) :
    cursor.nextChar? table = none := by
  have step : cursor.step? table = none := by
    rw [step?, next?_of_nil place]
  rw [nextChar?]
  split
  · rfl
  · next equal =>
      rw [step] at equal
      cases equal

/-! ## The start of a text -/

theorem unifyLineEnds_eq {text : List Char} (plain : '\r' ∉ text) : unifyLineEnds text = text := by
  induction text with
  | nil => rfl
  | cons character rest ih =>
      have other : character ≠ '\r' := fun equal => plain (equal ▸ List.mem_cons_self)
      have same := ih fun inside => plain (List.mem_cons_of_mem _ inside)
      rw [unifyLineEnds.eq_def]
      split
      · next equal => exact absurd (List.cons.inj equal).1 other
      · next equal => exact absurd (List.cons.inj equal).1 other
      · next equal =>
          cases equal
          rw [same]
      · next equal => cases equal

theorem splitLines_spec (text : List Char) :
    (splitLines text).flatten = text ∧ ∀ line ∈ splitLines text, '\n' ∉ line.dropLast := by
  fun_induction splitLines text with
  | case1 => simp
  | case2 rest ih => simpa using ih
  | case3 character rest other empty ih =>
      rw [empty] at ih
      have last : rest = [] := by simpa using ih.1.symm
      simp [last]
  | case4 character rest other line lines equal ih =>
      rw [equal] at ih
      refine ⟨by simpa using ih.1, ?_⟩
      intro some member
      rcases List.mem_cons.mp member with rfl | later
      · have inner := ih.2 line List.mem_cons_self
        cases line with
        | nil => simp
        | cons second line =>
            intro inside
            rw [List.dropLast_cons_cons, List.mem_cons] at inside
            rcases inside with isFirst | inLine
            · exact other isFirst.symm
            · exact inner inLine
      · exact ih.2 some (List.mem_cons_of_mem _ later)

/-- The cursor at the start of a text. -/
theorem at_ofText {text : List Char} (plain : '\r' ∉ text) : (ofText text).At text := by
  have spec := splitLines_spec text
  unfold ofText
  rw [unifyLineEnds_eq plain]
  exact ⟨spec.1, spec.2⟩

end Cursor

namespace Reader

variable {table : CategoryTable} {reader after : Reader} {characters : List Char}

/-- The tokens that are ahead of a reader. -/
def ahead (table : CategoryTable) (reader : Reader) : List Token :=
  Input.ahead table ⟨[.text reader]⟩

theorem ahead_of_next {token : Token} (found : reader.next table = (some token, after)) :
    reader.ahead table = token.bare :: after.ahead table := by
  apply Input.ahead_of_next
  simp [Input.next, Input.nextOf, found]

theorem ahead_of_next_none (found : reader.next table = (none, after)) :
    reader.ahead table = [] := by
  have exhausted : Input.next table ⟨[.text reader]⟩ = (none, ⟨[]⟩) := by
    simp [Input.next, Input.nextOf, found]
  exact Input.ahead_of_next_none exhausted

theorem ahead_congr (same : reader.next table = after.next table) :
    reader.ahead table = after.ahead table := by
  cases found : after.next table with
  | mk result rest =>
      cases result with
      | none => rw [ahead_of_next_none found, ahead_of_next_none (same.trans found)]
      | some token => rw [ahead_of_next found, ahead_of_next (same.trans found)]

/-- The tokens of the text are those that are ahead, with their positions. -/
theorem map_bare_tokens (table : CategoryTable) (reader : Reader) :
    (reader.tokens table).1.map Token.bare = reader.ahead table := by
  fun_induction tokens table reader with
  | case1 reader rest found => exact (ahead_of_next_none found).symm
  | case2 reader token rest found more final equal ih =>
      rw [equal] at ih
      rw [ahead_of_next found, List.map_cons, ih]

/-- What is ahead has no positions. -/
theorem map_bare_ahead (table : CategoryTable) (reader : Reader) :
    (reader.ahead table).map Token.bare = reader.ahead table := by
  rw [← map_bare_tokens, List.map_map]
  rfl

theorem next_of_nextChar?_none (found : reader.cursor.nextChar? table = none) :
    reader.next table = (none, { reader with cursor := reader.cursor.finish }) := by
  rw [next]
  split
  · rfl
  · next equal =>
      rw [found] at equal
      cases equal

/-- At the end of the text no token is left. -/
theorem ahead_of_nil (place : reader.cursor.At []) : reader.ahead table = [] :=
  ahead_of_next_none (next_of_nextChar?_none (Cursor.nextChar?_of_nil place))

/-- One step of reading: the next character decides. -/
theorem next_of_nextChar? {character : Char} {category : Category} {cursor : Cursor}
    (found : reader.cursor.nextChar? table = some (character, category, cursor)) :
    reader.next table =
      match reader.react table character category cursor with
      | (some token, after) =>
          (some (token.at? (some (reader.positionOf reader.cursor.settle))),
            { after with afterBreak := token.isNamed "par" })
      | (none, after) => after.next table := by
  rw [next]
  split
  · next none =>
      rw [found] at none
      cases none
  · next equal =>
      rw [found] at equal
      cases equal
      split
      · next reaction =>
          rw [reaction]
      · next reaction =>
          rw [reaction]

theorem ahead_step {character : Char} {category : Category} {cursor : Cursor}
    (found : reader.cursor.nextChar? table = some (character, category, cursor)) :
    reader.ahead table =
      match reader.react table character category cursor with
      | (some token, after) =>
          token.bare :: { after with afterBreak := token.isNamed "par" }.ahead table
      | (none, after) => after.ahead table := by
  have step := next_of_nextChar? found
  split at step
  · next reaction =>
      rw [ahead_of_next step]
      rfl
  · exact ahead_congr step

/-- A reader that stands before the given characters in the middle of a line. -/
structure Midline (reader : Reader) (characters : List Char) : Prop where
  place : reader.cursor.At characters
  state : reader.state = .midLine

/-- The categories of the characters that stand for themselves. -/
def isPlain (category : Category) : Bool :=
  [.letter, .other, .beginGroup, .endGroup, .mathShift, .alignmentTab, .parameter,
    .subscript].contains category

/-- The plain characters of a text give one token each. -/
theorem ahead_character {character : Char} {category : Category}
    (isCategory : table.category character = category) (plain : isPlain category)
    (place : reader.cursor.At (character :: characters)) :
    ∃ after : Reader, reader.ahead table = .ofChar character category :: after.ahead table ∧
      after.Midline characters := by
  have notMark : category ≠ .superscript := by
    rintro rfl
    cases plain
  have kept : Cursor.isDropped category = false := by
    cases category <;> first | rfl | cases plain
  obtain ⟨rest, found, behind, _⟩ := Cursor.nextChar?_of_cons isCategory notMark kept place
  have reaction : reader.react table character category rest =
      reader.emit rest .midLine (.ofChar character category) := by
    cases category <;> first | rfl | cases plain
  rw [ahead_step found, reaction]
  exact ⟨_, rfl, behind, rfl⟩

/-- A superscript character that is not doubled gives a token. -/
theorem ahead_mark {mark : Char} (isMark : table.category mark = .superscript)
    (single : characters.head? ≠ some mark) (place : reader.cursor.At (mark :: characters)) :
    ∃ after : Reader, reader.ahead table = .ofChar mark .superscript :: after.ahead table ∧
      after.Midline characters := by
  obtain ⟨rest, found, behind⟩ := Cursor.nextChar?_of_mark isMark single place
  rw [ahead_step found]
  exact ⟨_, rfl, behind, rfl⟩

/-- An active character gives the control sequence that stands for it. -/
theorem ahead_active {character : Char} (isActive : table.category character = .active)
    (place : reader.cursor.At (character :: characters)) :
    ∃ after : Reader, reader.ahead table = .active character :: after.ahead table ∧
      after.Midline characters := by
  obtain ⟨rest, found, behind, _⟩ :=
    Cursor.nextChar?_of_cons isActive (by simp) (by rfl) place
  rw [ahead_step found]
  exact ⟨_, rfl, behind, rfl⟩

/-- A character behind the escape character names a control symbol, unless it is a letter or
ends the line. -/
theorem ahead_symbol {character : Char} {category : Category}
    (isEscape : table.category '\\' = .escape) (isCategory : table.category character = category)
    (notMark : category ≠ .superscript) (kept : Cursor.isDropped category = false)
    (notLetter : category ≠ .letter) (notEnd : category ≠ .endOfLine)
    (place : reader.cursor.At ('\\' :: character :: characters)) :
    ∃ after : Reader, reader.ahead table = .ofChar character .escape :: after.ahead table ∧
      after.Midline characters := by
  obtain ⟨cursor, found, inner, _⟩ :=
    Cursor.nextChar?_of_cons isEscape (by simp) (by rfl) place
  obtain ⟨rest, first, behind, _⟩ := Cursor.nextChar?_of_cons isCategory notMark kept inner
  have reaction : reader.react table '\\' .escape cursor =
      reader.emit rest .midLine (.ofChar character .escape) := by
    simp only [react, escape, first]
  rw [ahead_step found, reaction]
  exact ⟨_, rfl, behind, rfl⟩

/-- A space gives a token in the middle of a line only. -/
theorem ahead_space (isSpace : table.category ' ' = .space)
    (place : reader.cursor.At (' ' :: characters)) :
    ∃ after : Reader, after.cursor.At characters ∧
      (reader.ahead table = after.ahead table ∨
        reader.ahead table = .space :: after.ahead table) ∧
      (reader.state = .midLine → reader.ahead table = .space :: after.ahead table) ∧
      (reader.state ≠ .midLine → reader.ahead table = after.ahead table) := by
  obtain ⟨rest, found, behind, _⟩ :=
    Cursor.nextChar?_of_cons isSpace (by simp) (by rfl) place
  rw [ahead_step found]
  by_cases middle : reader.state = .midLine
  · have reaction : reader.react table ' ' .space rest =
        reader.emit rest .skipBlanks .space := by simp [react, middle]
    rw [reaction]
    exact ⟨_, behind, .inr rfl, fun _ => rfl, fun other => absurd middle other⟩
  · have reaction : reader.react table ' ' .space rest =
        reader.pass rest reader.state := by simp [react, middle]
    rw [reaction]
    exact ⟨_, behind, .inl rfl, fun isMiddle => absurd isMiddle middle, fun _ => rfl⟩

/-- A line feed gives nothing, a space or a paragraph break. -/
theorem ahead_lineEnd (isLineEnd : table.category '\n' = .endOfLine)
    (place : reader.cursor.At ('\n' :: characters)) :
    ∃ after : Reader, after.cursor.At characters ∧
      (reader.ahead table = after.ahead table ∨
        reader.ahead table = .space :: after.ahead table ∨
        reader.ahead table = .control "par" :: after.ahead table) := by
  obtain ⟨rest, found, _, lineEnd⟩ :=
    Cursor.nextChar?_of_cons isLineEnd (by simp) (by rfl) place
  have behind := lineEnd rfl
  rw [ahead_step found]
  have reaction : reader.react table '\n' .endOfLine rest =
      reader.lineEnd rest.skipRestOfLine := rfl
  rw [reaction, Reader.lineEnd]
  cases reader.state with
  | skipBlanks => exact ⟨_, behind, .inl rfl⟩
  | midLine => exact ⟨_, behind, .inr (.inl rfl)⟩
  | newLine =>
      cases reader.afterBreak with
      | true => exact ⟨_, behind, .inl rfl⟩
      | false => exact ⟨_, behind, .inr (.inr rfl)⟩

end Reader

namespace Cursor

variable {table : CategoryTable} {cursor : Cursor} {character : Char} {characters : List Char}

/-- What is read from the characters does not begin with a letter, so that it does not go on
with a word before it. -/
def EndsWord (table : CategoryTable) (characters : List Char) : Prop :=
  ∀ cursor : Cursor, cursor.At characters →
    ∀ character rest, cursor.nextChar? table ≠ some (character, .letter, rest)

theorem endsWord_nil : EndsWord table [] := by
  intro cursor place character rest found
  rw [nextChar?_of_nil place] at found
  cases found

theorem endsWord_cons (notLetter : table.category character ≠ .letter)
    (notMark : table.category character ≠ .superscript)
    (kept : isDropped (table.category character) = false) :
    EndsWord table (character :: characters) := by
  intro cursor place other rest found
  obtain ⟨_, read, _, _⟩ := nextChar?_of_cons rfl notMark kept place
  rw [read, Option.some.injEq, Prod.mk.injEq, Prod.mk.injEq] at found
  exact notLetter found.2.1

/-- A special character ends a word unless it is the superscript character. -/
theorem endsWord_special (category : Category)
    (isSpecial : (character, category) ∈ CategoryTable.specialCharacters)
    (ends : category ≠ .letter ∧ category ≠ .superscript ∧ isDropped category = false) :
    EndsWord .initial (character :: characters) := by
  rw [← CategoryTable.category_special isSpecial] at ends
  exact endsWord_cons ends.1 ends.2.1 ends.2.2

theorem endsWord_mark {mark : Char} (isMark : table.category mark = .superscript)
    (single : characters.head? ≠ some mark) : EndsWord table (mark :: characters) := by
  intro cursor place other rest found
  obtain ⟨_, read, _⟩ := nextChar?_of_mark isMark single place
  rw [read] at found
  cases found

/-- The letters of a control word are read up to a character that ends it. -/
theorem letters_of_at {name : List Char}
    (isWord : ∀ character ∈ name, table.category character = .letter)
    (ends : EndsWord table characters) (place : cursor.At (name ++ characters)) :
    ∃ rest, cursor.letters table = (name, rest) ∧ rest.At characters := by
  induction name generalizing cursor with
  | nil =>
      refine ⟨cursor, ?_, place⟩
      rw [letters]
      split
      · next found => exact absurd found (ends cursor place _ _)
      · rfl
  | cons letter name ih =>
      obtain ⟨rest, found, behind, _⟩ := nextChar?_of_cons
        (isWord letter List.mem_cons_self) (by simp) (by rfl) place
      obtain ⟨final, read, last⟩ :=
        ih (fun character member => isWord character (List.mem_cons_of_mem _ member)) behind
      refine ⟨final, ?_, last⟩
      rw [letters]
      split
      · next equal =>
          rw [found] at equal
          cases equal
          rw [read]
      · next other =>
          exact absurd found (other _ _)

end Cursor

namespace Reader

variable {table : CategoryTable} {reader : Reader} {characters : List Char}

/-- A control word is one token. -/
theorem ahead_control {name : List Char} (isEscape : table.category '\\' = .escape)
    (isWord : ∀ character ∈ name, table.category character = .letter) (word : name ≠ [])
    (ends : Cursor.EndsWord table characters)
    (place : reader.cursor.At ('\\' :: (name ++ characters))) :
    ∃ after : Reader,
      reader.ahead table = .control (String.ofList name) :: after.ahead table ∧
      after.cursor.At characters ∧ after.state = .skipBlanks := by
  obtain ⟨cursor, found, inner, _⟩ :=
    Cursor.nextChar?_of_cons isEscape (by simp) (by rfl) place
  cases name with
  | nil => exact absurd rfl word
  | cons letter name =>
      obtain ⟨middle, first, behind, _⟩ := Cursor.nextChar?_of_cons
        (isWord letter List.mem_cons_self) (by simp) (by rfl) inner
      obtain ⟨final, read, last⟩ := Cursor.letters_of_at
        (fun character member => isWord character (List.mem_cons_of_mem _ member)) ends behind
      have reaction : reader.react table '\\' .escape cursor =
          reader.emit final .skipBlanks (.control (String.ofList (letter :: name))) := by
        simp only [react, escape, first, read]
      rw [ahead_step found, reaction]
      exact ⟨_, rfl, last, rfl⟩

/-- A control word of the initial categories, before a character that ends it. -/
theorem ahead_word {name : String} (isWord : Text.isControlWord name)
    (ends : Cursor.EndsWord .initial characters)
    (place : reader.cursor.At ('\\' :: (name.toList ++ characters))) :
    ∃ after : Reader, reader.ahead .initial = .control name :: after.ahead .initial ∧
      after.cursor.At characters ∧ after.state = .skipBlanks := by
  have isLetter : ∀ letter ∈ name.toList, CategoryTable.initial.category letter = .letter :=
    fun letter member => CategoryTable.category_letter (Text.mem_asciiLetters isWord letter member)
  have cut := ahead_control CategoryTable.category_backslash isLetter
    (Text.ne_nil_of_isControlWord isWord) ends place
  rw [String.ofList_toList] at cut
  exact cut

end Reader

end TexTree
