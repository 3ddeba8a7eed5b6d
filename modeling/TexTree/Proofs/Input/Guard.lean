import TexTree.Proofs.Input.Progress
import TexTree.Proofs.Input.Spelling

/-!
# The space behind a control sequence

The source of a control sequence has a space before a letter, lest the letter be read as
a part of the name.  Whether it is needed is decided twice: the source has it behind a name
whose last character is alphabetic, whereas the reader goes on with a name as long as the
characters have the category of letters.  The two agree about most names, but a name may
end with the sign `@`, which is a letter that is not alphabetic; it may be one alphabetic
character that is no letter; and it may be empty.

A letter behind a control sequence is read back if and only if the two agree about the name
(`Reader.letter_kept_iff`).
-/

namespace TexTree

namespace Text

/-- The last character of the name is alphabetic if and only if it is a letter for the
reader.  The empty name has no last character. -/
def EndsAlike (name : String) : Prop :=
  ∃ last ∈ name.toList.getLast?,
    (isAlphabetic last = true ↔ CategoryTable.initial.category last = .letter)

instance (name : String) : Decidable (EndsAlike name) :=
  match isLast : name.toList.getLast? with
  | none => isFalse (by simp [EndsAlike, isLast])
  | some last =>
      decidable_of_iff (isAlphabetic last = true ↔ CategoryTable.initial.category last = .letter)
        (by simp [EndsAlike, isLast])

end Text

namespace Cursor

variable {table : CategoryTable} {cursor rest : Cursor} {character : Char} {category : Category}

/-- Characters are read with their categories, also those that are given by codes. -/
theorem category_eq_of_nextChar?
    (found : cursor.nextChar? table = some (character, category, rest)) :
    table.category character = category ∧ isDropped category = false := by
  fun_induction nextChar? table cursor with
  | case1 => cases found
  | case2 cursor _ _ middle step _ ih => exact ih found
  | case3 cursor _ _ middle step kept =>
      cases found
      refine ⟨?_, by simpa using kept⟩
      unfold step? at step
      split at step
      · cases step
      · split at step
        · next isMark =>
            split at step <;> cases step
            · rfl
            · exact isMark
        · cases step
          rfl

/-- The letters of a name have the category of letters. -/
theorem category_of_mem_letters (member : character ∈ (cursor.letters table).1) :
    table.category character = .letter := by
  fun_induction letters table cursor with
  | case1 cursor first rest found more final equal ih =>
      rw [equal] at ih
      rcases List.mem_cons.mp member with rfl | later
      · exact (category_eq_of_nextChar? found).1
      · exact ih later
  | case2 => cases member

end Cursor

namespace Reader

/-- The names that a reader gives to the control sequences behind an escape character. -/
inductive Names (table : CategoryTable) : List Char → Prop where
  /-- At the end of a line or of the text. -/
  | empty : Names table []
  | word {name : List Char} (isWord : ∀ letter ∈ name, table.category letter = .letter)
      (nonempty : name ≠ []) : Names table name
  | symbol {character : Char} (notLetter : table.category character ≠ .letter)
      (notEnd : table.category character ≠ .endOfLine)
      (kept : Cursor.isDropped (table.category character) = false) : Names table [character]

variable {table : CategoryTable} {reader after : Reader} {cursor : Cursor} {token : Token}

/-- No name has a line end in it. -/
theorem Names.category_ne {name : List Char} {character : Char} (names : Names table name)
    (member : character ∈ name) : table.category character ≠ .endOfLine := by
  cases names with
  | empty => cases member
  | word isWord => simp [isWord character member]
  | symbol notLetter notEnd kept => rwa [List.mem_singleton.mp member]

theorem names_of_escape (found : reader.escape table cursor = (some token, after)) :
    Names table token.text.toList := by
  unfold escape at found
  split at found
  · cases found
    exact .empty
  · cases found
    exact .empty
  · next letter rest read =>
      cases found
      refine .word (fun other member => ?_) (by simp [Token.control])
      rw [Token.control, String.toList_ofList] at member
      rcases List.mem_cons.mp member with rfl | later
      · exact (Cursor.category_eq_of_nextChar? read).1
      · exact Cursor.category_of_mem_letters later
  · next character category rest notEnd notLetter read =>
      cases found
      obtain ⟨rfl, kept⟩ := Cursor.category_eq_of_nextChar? read
      rw [Token.ofChar, String.toList_singleton]
      exact .symbol notLetter notEnd kept

/-- A control sequence that was read stands for a paragraph break or an active character, or
its name was read behind an escape character. -/
theorem names_of_next (found : reader.next table = (some token, after))
    (isControl : token.isControl) :
    token.text = "par" ∨ token.activeChar? ≠ none ∨ Names table token.text.toList := by
  fun_induction next table reader with
  | case1 => cases found
  | case2 reader character category cursor read token' reader' reaction =>
      have same : token.text = token'.text ∧ token'.isControl := by
        cases found
        exact ⟨rfl, isControl⟩
      have marked : token.activeChar? = token'.activeChar? := by
        rw [Token.activeChar?, Token.activeChar?, same.1]
      rw [same.1, marked]
      unfold react at reaction
      split at reaction
      · split at reaction <;> cases reaction
        cases same.2
      · unfold lineEnd at reaction
        split at reaction
        · cases reaction
        · cases reaction
          cases same.2
        · split at reaction <;> cases reaction
          exact .inl rfl
      · exact .inr (.inr (names_of_escape reaction))
      · cases reaction
      · cases reaction
        refine .inr (.inl ?_)
        simp [Token.activeChar?, Text.afterMark?, Token.active, Token.control,
          List.isPrefixOf_iff_prefix]
      · next notEscape _ _ =>
          cases reaction
          exact absurd (by simpa [Token.isControl, Token.ofChar] using same.2) notEscape
  | case3 _ _ _ _ _ _ _ ih => exact ih found

theorem exists_next_of_mem_tokens (member : token ∈ (reader.tokens table).1) :
    ∃ earlier later : Reader, earlier.next table = (some token, later) := by
  fun_induction tokens table reader with
  | case1 => cases member
  | case2 reader first rest found more final equal ih =>
      rw [equal] at ih
      rcases List.mem_cons.mp member with rfl | behind
      · exact ⟨reader, rest, found⟩
      · exact ih behind

end Reader

/-! ## The source of a control sequence and a letter -/

namespace Token

variable {name : String} {letter : Char}

/-- The space that is written behind a name and before a letter. -/
def guard (name : String) : List Char := if (control name).isControlWord then [' '] else []

theorem toList_sourceList_letter (notBreak : name ≠ "par")
    (notActive : (control name).activeChar? = none) (letter : Char) :
    (sourceList [control name, .letter letter]).toList =
      '\\' :: (name.toList ++ (guard name ++ [letter])) := by
  have shown : (control name).display = "\\" ++ name := by
    change (control name).activeChar?.getD _ = _
    rw [notActive]
    rfl
  have notNamed : (control name).isNamed "par" = false := by
    simp [isNamed, control, notBreak]
  have isLetter : (sourceList [.letter letter]).toList = [letter] := by
    rw [toList_sourceList_plain (by simp [Token.letter, ofChar]) (by simp [Token.letter, ofChar])]
    simp [Token.letter, ofChar, sourceList]
  rw [toList_sourceList_cons, isLetter, guard]
  cases isWord : (control name).isControlWord with
  | true =>
      simp [control, notBreak, separator, startsWithLetter, Token.letter, ofChar]
  | false =>
      simp [source, notNamed, isWord, shown]

theorem isControlWord_iff (notActive : (control name).activeChar? = none) :
    (control name).isControlWord = true ↔
      ∃ last ∈ name.toList.getLast?, Text.isAlphabetic last = true := by
  rw [isControlWord, notActive]
  cases isLast : name.toList.getLast? <;> simp [control, isControl, isLast]

end Token

namespace Reader

variable {reader : Reader} {name : String} {character letter : Char} {characters : List Char}

/-- A control symbol, which may be the superscript character if that is not doubled. -/
theorem ahead_single (notLetter : CategoryTable.initial.category character ≠ .letter)
    (notEnd : CategoryTable.initial.category character ≠ .endOfLine)
    (kept : Cursor.isDropped (CategoryTable.initial.category character) = false)
    (single : CategoryTable.initial.category character = .superscript →
      characters.head? ≠ some character)
    (place : reader.cursor.At ('\\' :: character :: characters)) :
    ∃ after : Reader,
      reader.ahead .initial = .ofChar character .escape :: after.ahead .initial ∧
      after.Midline characters := by
  by_cases isMark : CategoryTable.initial.category character = .superscript
  · obtain ⟨cursor, found, inner, _⟩ :=
      Cursor.nextChar?_of_cons CategoryTable.category_backslash (by simp) (by rfl) place
    obtain ⟨rest, first, behind⟩ := Cursor.nextChar?_of_mark isMark (single isMark) inner
    have reaction : reader.react .initial '\\' .escape cursor =
        reader.emit rest .midLine (.ofChar character .escape) := by
      simp only [react, escape, first]
    rw [ahead_step found, reaction]
    exact ⟨_, rfl, behind, rfl⟩
  · exact ahead_symbol CategoryTable.category_backslash rfl isMark kept notLetter notEnd place

/-- A letter at the end of the text. -/
theorem ahead_letter (isLetter : CategoryTable.initial.category letter = .letter)
    (place : reader.cursor.At [letter]) : reader.ahead .initial = [.letter letter] := by
  obtain ⟨after, ahead, behind⟩ := ahead_character isLetter (by rfl) place
  rw [ahead, ahead_of_nil behind.place]
  rfl

/-- Without a space, a letter becomes the last one of a name of letters. -/
theorem ahead_absorbed
    (isWord : ∀ other ∈ name.toList, CategoryTable.initial.category other = .letter)
    (isLetter : CategoryTable.initial.category letter = .letter)
    (place : reader.cursor.At ('\\' :: (name.toList ++ [letter]))) :
    reader.ahead .initial = [.control (name.push letter)] := by
  have longer : ∀ other ∈ name.toList ++ [letter],
      CategoryTable.initial.category other = .letter := by
    intro other member
    rcases List.mem_append.mp member with old | new
    · exact isWord other old
    · rw [List.mem_singleton.mp new]
      exact isLetter
  rw [← List.append_nil (name.toList ++ [letter])] at place
  obtain ⟨after, ahead, behind, -⟩ :=
    ahead_control CategoryTable.category_backslash longer (by simp) Cursor.endsWord_nil place
  have isPush : String.ofList (name.toList ++ [letter]) = name.push letter := by
    apply String.toList_injective
    simp
  rw [ahead, ahead_of_nil behind, isPush]

/-- With a space, a letter stays behind a name of letters. -/
theorem ahead_guarded
    (isWord : ∀ other ∈ name.toList, CategoryTable.initial.category other = .letter)
    (nonempty : name.toList ≠ [])
    (isLetter : CategoryTable.initial.category letter = .letter)
    (place : reader.cursor.At ('\\' :: (name.toList ++ [' ', letter]))) :
    reader.ahead .initial = [.control name, .letter letter] := by
  have ends : Cursor.EndsWord .initial [' ', letter] :=
    Cursor.endsWord_special .space (by decide) (by decide)
  obtain ⟨between, ahead, placeBetween, state⟩ :=
    ahead_control CategoryTable.category_backslash isWord nonempty ends place
  obtain ⟨after, behind, -, -, skipped⟩ := ahead_space CategoryTable.category_space placeBetween
  rw [ahead, skipped (by simp [state]), ahead_letter isLetter behind, String.ofList_toList]

/-- A letter behind a control sequence is read back if and only if the source and the reader
agree about the end of the name. -/
theorem ahead_control_letter_iff (names : Names .initial name.toList)
    (notActive : (Token.control name).activeChar? = none)
    (isLetter : CategoryTable.initial.category letter = .letter)
    (place : reader.cursor.At ('\\' :: (name.toList ++ (Token.guard name ++ [letter])))) :
    reader.ahead .initial = [.control name, .letter letter] ↔ Text.EndsAlike name := by
  have isGuarded := Token.isControlWord_iff notActive
  unfold Token.guard at place
  generalize isName : name.toList = characters at names
  cases names with
  | empty =>
      have bare : (Token.control name).isControlWord = false := by
        simpa [isName] using isGuarded
      have merged : reader.ahead .initial = [.control (name.push letter)] := by
        apply ahead_absorbed (by simp [isName]) isLetter
        simpa [bare] using place
      simp [merged, Text.EndsAlike, isName]
  | word isWord nonempty =>
      rw [← isName] at isWord nonempty
      obtain ⟨last, isLast⟩ : ∃ last, name.toList.getLast? = some last :=
        ⟨_, List.getLast?_eq_some_getLast nonempty⟩
      have lastLetter := isWord last (List.mem_of_getLast? isLast)
      simp only [isLast, Option.mem_some_iff, exists_eq_left'] at isGuarded
      have alike : Text.EndsAlike name ↔ (Token.control name).isControlWord = true := by
        simp [Text.EndsAlike, isLast, lastLetter, isGuarded]
      rw [alike]
      cases bare : (Token.control name).isControlWord with
      | true =>
          rw [bare] at place
          simp [ahead_guarded isWord nonempty isLetter place]
      | false =>
          rw [bare] at place
          simp [ahead_absorbed isWord isLetter place]
  | @symbol character notLetter notEnd kept =>
      have alike : Text.EndsAlike name ↔ (Token.control name).isControlWord = false := by
        simp [Text.EndsAlike, isName, notLetter, ← Bool.not_eq_true, isGuarded]
      have isSymbol : Token.ofChar character .escape = .control name := by
        rw [Token.ofChar, Token.control, ← String.ofList_toList (s := name), isName]
        rfl
      have single : ∀ characters : List Char, (∀ other ∈ characters.head?,
          CategoryTable.initial.category other ≠ .superscript) →
          CategoryTable.initial.category character = .superscript →
          characters.head? ≠ some character :=
        fun characters other isMark isHead => other character isHead isMark
      rw [isName] at place
      rw [alike]
      cases bare : (Token.control name).isControlWord with
      | true =>
          rw [bare] at place
          obtain ⟨middle, ahead, midline⟩ := ahead_single notLetter notEnd kept
            (single [' ', letter] (by simp [CategoryTable.category_space])) place
          obtain ⟨after, behind, -, spaced, -⟩ :=
            ahead_space CategoryTable.category_space midline.place
          simp [ahead, spaced midline.state, ahead_letter isLetter behind]
      | false =>
          rw [bare] at place
          obtain ⟨after, ahead, midline⟩ := ahead_single notLetter notEnd kept
            (single [letter] (by simp [isLetter])) place
          simp [ahead, ahead_letter isLetter midline.place, isSymbol]

/-- A letter that is written behind a control sequence, whatever text that was read from, is
read back behind the same control sequence if and only if the source and the reader agree
about the end of its name: its last character is alphabetic exactly if it is a letter for
the reader.  Paragraph breaks and active characters are written in ways of their own. -/
theorem letter_kept_iff (text file : String) {token : Token}
    (member : token ∈ ((ofText text file).tokens .initial).1) (isControl : token.isControl)
    (notBreak : token.text ≠ "par") (notActive : token.activeChar? = none) {letter : Char}
    (isLetter : CategoryTable.initial.category letter = .letter) :
    ((ofText (Token.sourceList [token, .letter letter]) file).tokens .initial).1.map Token.bare =
      [token.bare, .letter letter] ↔ Text.EndsAlike token.text := by
  obtain ⟨earlier, later, found⟩ := exists_next_of_mem_tokens member
  have names : Names .initial token.text.toList := by
    rcases names_of_next found isControl with isBreak | isActive | names
    · exact absurd isBreak notBreak
    · exact absurd notActive isActive
    · exact names
  have isBare : token.bare = .control token.text := by
    have isEscape : token.category = .escape := by simpa [Token.isControl] using isControl
    rw [Token.bare, Token.at?, Token.control, isEscape]
  have notMarked : (Token.control token.text).activeChar? = none := notActive
  have isSource := Token.toList_sourceList_letter notBreak notMarked letter
  rw [map_bare_tokens, ← Token.sourceList_bare, List.map_cons, List.map_singleton, isBare]
  have place : (ofText (Token.sourceList [.control token.text, .letter letter]) file).cursor.At
      ('\\' :: (token.text.toList ++ (Token.guard token.text ++ [letter]))) := by
    rw [← isSource]
    apply Cursor.at_ofText
    rw [isSource]
    have isEnd : CategoryTable.initial.category '\r' = .endOfLine :=
      CategoryTable.category_special (by decide)
    have notInName : '\r' ∉ token.text.toList := fun inside => names.category_ne inside isEnd
    have notLetter : '\r' ≠ letter := by
      rintro rfl
      rw [isEnd] at isLetter
      cases isLetter
    unfold Token.guard
    split <;> simp [notInName, notLetter]
  exact ahead_control_letter_iff names notMarked isLetter place

/-- Behind the name `bf` the letter stays, but the name `a@` takes it up, since the source
has no space there. -/
theorem letter_kept_iff_sign :
    let word : Token := ⟨"bf", .escape, some ⟨"<string>", 1, 1⟩⟩
    let sign : Token := ⟨"a@", .escape, some ⟨"<string>", 1, 4⟩⟩
    let read := ((ofText "\\bf\\a@" "<string>").tokens .initial).1
    let back (token : Token) : List Token :=
      ((ofText (Token.sourceList [token, .letter 'x']) "<string>").tokens .initial).1.map Token.bare
    word ∈ read ∧ sign ∈ read ∧ word.isControl ∧ sign.isControl ∧
      word.text ≠ "par" ∧ sign.text ≠ "par" ∧
      word.activeChar? = none ∧ sign.activeChar? = none ∧
      CategoryTable.initial.category 'x' = .letter ∧
      Token.sourceList [sign, .letter 'x'] = "\\a@x" ∧
      (Text.EndsAlike word.text ∧ back word = [word.bare, .letter 'x']) ∧
      (¬Text.EndsAlike sign.text ∧ back sign ≠ [sign.bare, .letter 'x']) := by
  intro word sign read back
  have isRead : read = [word, sign] := by decide +kernel
  have inRead : word ∈ read ∧ sign ∈ read := by simp [isRead]
  have isLetter : CategoryTable.initial.category 'x' = .letter := by decide +kernel
  have unmarked : word.activeChar? = none ∧ sign.activeChar? = none := by decide +kernel
  have notPar : word.text ≠ "par" ∧ sign.text ≠ "par" := by simp [word, sign]
  have alike : Text.EndsAlike word.text ∧ ¬Text.EndsAlike sign.text := by decide +kernel
  have kept := letter_kept_iff "\\bf\\a@" "<string>" inRead.1 rfl notPar.1 unmarked.1 isLetter
  have taken := letter_kept_iff "\\bf\\a@" "<string>" inRead.2 rfl notPar.2 unmarked.2 isLetter
  exact ⟨inRead.1, inRead.2, rfl, rfl, notPar.1, notPar.2, unmarked.1, unmarked.2, isLetter,
    by decide +kernel, ⟨alike.1, kept.mpr alike.1⟩, alike.2, fun same => alike.2 (taken.mp same)⟩

end Reader

end TexTree
