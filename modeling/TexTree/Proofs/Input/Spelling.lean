import Mathlib.Data.List.Chain
import TexTree.Proofs.Input.Lexing

/-!
# Reading back the source of tokens

The source of a list of tokens is cut into the same tokens again, as long as each of
them can be written at all (`Token.Spelled`) and none of them runs together with the
one before it (`Token.Adjoins`).

The only separator is the space behind a control word, which is written if the next
token starts with a letter.  So the proof has to look at the first character of what
follows a control word (`Token.exists_first`), and at the state of the reader: a space
token is read in the middle of a line only.
-/

namespace TexTree

namespace Text

/-- A character can be the name of a control symbol and stay what it is. -/
def isControlSymbol (character : Char) : Bool :=
  character.toNat < 128 && !CategoryTable.asciiLetters.contains character &&
    !(['@', '^', '\x00', '\r', '\n'].contains character)

/-- A fact about the control symbols can be checked for each of them. -/
theorem of_isControlSymbol (holds : Char → Bool) {character : Char}
    (all : ((List.range 128).map Char.ofNat).all fun character =>
      !isControlSymbol character || holds character)
    (isSymbol : isControlSymbol character) : holds character := by
  have ascii : character.toNat < 128 := by
    unfold isControlSymbol at isSymbol
    simp only [Bool.and_eq_true, decide_eq_true_eq] at isSymbol
    exact isSymbol.1.1
  have listed : character ∈ (List.range 128).map Char.ofNat :=
    List.mem_map.mpr ⟨character.toNat, List.mem_range.mpr ascii, Char.ofNat_toNat character⟩
  simpa [isSymbol] using List.all_eq_true.mp all character listed

end Text

namespace CategoryTable

variable {character : Char}

/-- The only superscript character is the caret. -/
theorem eq_of_category_superscript (isMark : initial.category character = .superscript) :
    character = '^' := by
  have carets : initial.characters .superscript = ['^'] := by decide +kernel
  have listed := (mem_characters_of_category isMark (by decide)).2
  rw [carets] at listed
  exact List.mem_singleton.mp listed

/-- A control symbol is read as it is: it is no superscript character, is not passed over, and is
neither a letter nor the end of a line. -/
theorem category_symbol (isSymbol : Text.isControlSymbol character) :
    initial.category character ≠ .superscript ∧
      Cursor.isDropped (initial.category character) = false ∧
      initial.category character ≠ .letter ∧ initial.category character ≠ .endOfLine := by
  have inSets : (lookUpOrder.all fun category => (initial.characters category).all fun character =>
      !Text.isControlSymbol character || category != .superscript && !Cursor.isDropped category &&
        category != .letter && category != .endOfLine) = true := by decide +kernel
  by_cases isOther : initial.category character = .other
  · rw [isOther]
    decide
  · obtain ⟨inOrder, listed⟩ := mem_characters_of_category rfl isOther
    have kinds := List.all_eq_true.mp (List.all_eq_true.mp inSets _ inOrder) _ listed
    simpa [isSymbol, and_assoc] using kinds

end CategoryTable

namespace Token

/-- The superscript character. -/
def superscript : Token := .ofChar '^' .superscript

/-- The categories of the characters that are written as they are. -/
def standing : List Category :=
  [.letter, .other, .beginGroup, .endGroup, .mathShift, .alignmentTab, .parameter, .superscript,
    .subscript]

/-- A token that can be written under the initial categories.  A paragraph break cannot,
because its source is a blank line. -/
inductive Spelled : Token → Prop where
  | word {name : String} (isWord : Text.isControlWord name) (notBreak : name ≠ "par") :
      Spelled (.control name)
  | symbol {character : Char} (isSymbol : Text.isControlSymbol character) :
      Spelled (.ofChar character .escape)
  | character {character : Char} {category : Category} (isStanding : category ∈ standing)
      (isCategory : CategoryTable.initial.category character = category) :
      Spelled (.ofChar character category)
  | tie : Spelled (.active '~')
  | space : Spelled .space

/-- The second token can be written behind the first one: it does not double a superscript
character, and if it is a space, it is not skipped. -/
structure Adjoins (first second : Token) : Prop where
  single : first = superscript → second ≠ superscript
  visible : second = .space → first ≠ .space ∧ first.isControlWord = false

/-- The tokens can be written one after the other. -/
structure Writable (tokens : List Token) : Prop where
  spelled : ∀ token ∈ tokens, token.Spelled
  adjoins : tokens.IsChain Adjoins
  begins : tokens.head? ≠ some .space

/-! ## The source of a token -/

variable {token next : Token} {rest : List Token} {name : String} {character : Char}

theorem activeChar?_control (isWord : Text.isControlWord name) :
    (control name).activeChar? = none := by
  have noColon : ':' ∉ name.toList := by
    intro member
    have isLetter := Text.mem_asciiLetters isWord ':' member
    revert isLetter
    decide
  have notMarked : activeMark.toList.isPrefixOf name.toList = false := by
    rw [Bool.eq_false_iff, ne_eq, List.isPrefixOf_iff_prefix]
    intro marked
    exact noColon (marked.subset (by decide))
  unfold activeChar? Text.afterMark?
  rw [control, notMarked]
  rfl

theorem isControlWord_control (isWord : Text.isControlWord name) :
    (control name).isControlWord := by
  obtain ⟨last, isLast⟩ : ∃ last, name.toList.getLast? = some last :=
    ⟨_, List.getLast?_eq_some_getLast (Text.ne_nil_of_isControlWord isWord)⟩
  have isAlphabetic : Text.isAlphabetic last := by
    have letters : (CategoryTable.asciiLetters.all Text.isAlphabetic) = true := by decide
    exact List.all_eq_true.mp letters last
      (Text.mem_asciiLetters isWord last (List.mem_of_getLast? isLast))
  unfold isControlWord
  rw [activeChar?_control isWord]
  simp [control, isControl, isLast, isAlphabetic]

theorem isControlWord_symbol (isSymbol : Text.isControlSymbol character) :
    (ofChar character .escape).isControlWord = false := by
  have notAlphabetic : !Text.isAlphabetic character :=
    Text.of_isControlSymbol (fun character => !Text.isAlphabetic character) (by decide +kernel)
      isSymbol
  have isOther : Text.isAlphabetic character = false := by simpa using notAlphabetic
  simp [isControlWord, ofChar, isOther]

theorem isControlWord_of_category (other : token.category ≠ .escape) :
    token.isControlWord = false := by
  simp [isControlWord, isControl, other]

/-- The separator behind a control word. -/
def separator : List Token → List Char
  | next :: _ => if next.startsWithLetter then [' '] else []
  | [] => []

theorem toList_sourceList_cons (token : Token) (rest : List Token) :
    (sourceList (token :: rest)).toList =
      (if token.isControlWord && token.text != "par" then
        '\\' :: token.text.toList ++ separator rest
      else token.source.toList) ++ (sourceList rest).toList := by
  rw [sourceList.eq_def]
  dsimp only
  split
  · cases rest with
    | nil => simp [separator]
    | cons next rest =>
        simp only [separator]
        split <;> simp
  · simp

theorem sourceList_bare (tokens : List Token) :
    sourceList (tokens.map bare) = sourceList tokens := by
  induction tokens with
  | nil => rfl
  | cons token rest ih =>
      apply String.toList_injective
      rw [List.map_cons, toList_sourceList_cons, toList_sourceList_cons, ih]
      cases rest <;> rfl

theorem toList_sourceList_word (isWord : Text.isControlWord name) (notBreak : name ≠ "par")
    (rest : List Token) :
    (sourceList (.control name :: rest)).toList =
      '\\' :: (name.toList ++ (separator rest ++ (sourceList rest).toList)) := by
  have isSeparated : ((control name).isControlWord && (control name).text != "par") = true := by
    rw [isControlWord_control isWord]
    simp [control, notBreak]
  rw [toList_sourceList_cons, if_pos isSeparated]
  simp [control]

theorem toList_sourceList_symbol (isSymbol : Text.isControlSymbol character)
    (rest : List Token) :
    (sourceList (.ofChar character .escape :: rest)).toList =
      '\\' :: character :: (sourceList rest).toList := by
  have isPlain := isControlWord_symbol isSymbol
  have notMarked : (ofChar character .escape).activeChar? = none := by
    simp [activeChar?, Text.afterMark?, activeMark, ofChar]
  have notBreak : String.singleton character ≠ "par" := by
    intro equal
    simpa using congrArg String.toList equal
  have notNamed : (ofChar character .escape).isNamed "par" = false := by
    simp [isNamed, ofChar, notBreak]
  have isSource : (ofChar character .escape).source = "\\" ++ String.singleton character := by
    have shown : (ofChar character .escape).display = "\\" ++ String.singleton character := by
      change (ofChar character .escape).activeChar?.getD _ = _
      rw [notMarked]
      rfl
    rw [source, notNamed, isPlain, shown]
    rfl
  rw [toList_sourceList_cons, isPlain, isSource]
  simp

theorem toList_sourceList_tie (rest : List Token) :
    (sourceList (.active '~' :: rest)).toList = '~' :: (sourceList rest).toList := by
  have spelling : (active '~').isControlWord = false ∧ (active '~').source = "~" := by
    decide +kernel
  rw [toList_sourceList_cons, spelling.1, spelling.2]
  simp

/-- A token that is neither a control sequence nor a marker is written as its text. -/
theorem toList_sourceList_plain (notControl : token.category ≠ .escape)
    (notMarker : token.category ≠ .endOfList) (rest : List Token) :
    (sourceList (token :: rest)).toList = token.text.toList ++ (sourceList rest).toList := by
  have isPlain : token.isControlWord = false := isControlWord_of_category notControl
  have isText : token.source = token.text := by
    simp only [source, isPlain, isNamed, isControl, display]
    split <;> simp_all
  rw [toList_sourceList_cons, isPlain, isText]
  simp

/-! ## The first character -/

/-- The source of a token that is not empty, and what its first character tells: a caret is
the superscript character, and a letter is seen by a control word before it. -/
theorem Spelled.exists_first (spelled : token.Spelled) (rest : List Token) :
    ∃ first behind, (sourceList (token :: rest)).toList = first :: behind ∧
      (first = '^' → token = superscript ∧ behind = (sourceList rest).toList) ∧
      (CategoryTable.initial.category first = .letter → token.startsWithLetter) ∧
      Cursor.isDropped (CategoryTable.initial.category first) = false := by
  cases spelled with
  | word isWord notBreak =>
      refine ⟨_, _, toList_sourceList_word isWord notBreak rest, ?_, ?_, ?_⟩
      · simp
      · simp [CategoryTable.category_backslash]
      · rw [CategoryTable.category_backslash]
        rfl
  | symbol isSymbol =>
      refine ⟨_, _, toList_sourceList_symbol isSymbol rest, ?_, ?_, ?_⟩
      · simp
      · simp [CategoryTable.category_backslash]
      · rw [CategoryTable.category_backslash]
        rfl
  | @character character category isStanding isCategory =>
      have facts : category ≠ .escape ∧ category ≠ .endOfList ∧
          Cursor.isDropped category = false := by
        revert isStanding
        cases category <;> decide
      refine ⟨character, (sourceList rest).toList, ?_, ?_, ?_, ?_⟩
      · rw [toList_sourceList_plain facts.1 facts.2.1]
        simp [ofChar]
      · rintro rfl
        have isMark : CategoryTable.initial.category '^' = .superscript :=
          CategoryTable.category_special (by decide)
        exact ⟨by rw [superscript, ← isMark, isCategory], rfl⟩
      · intro isLetter
        simp [startsWithLetter, ofChar, ← isCategory, isLetter]
      · rw [isCategory]
        exact facts.2.2
  | tie =>
      refine ⟨_, _, toList_sourceList_tie rest, ?_, ?_, ?_⟩
      · simp
      · simp [CategoryTable.category_tie]
      · rw [CategoryTable.category_tie]
        rfl
  | space =>
      refine ⟨' ', _, toList_sourceList_plain (by decide) (by decide) rest, ?_, ?_, ?_⟩
      · simp
      · simp [CategoryTable.category_space]
      · rw [CategoryTable.category_space]
        rfl

/-- Behind a superscript character that is not doubled, no caret is written. -/
theorem head?_sourceList_ne (spelled : ∀ token ∈ rest, token.Spelled)
    (single : rest.head? ≠ some superscript) : (sourceList rest).toList.head? ≠ some '^' := by
  cases rest with
  | nil => simp [sourceList]
  | cons next more =>
      obtain ⟨first, behind, equal, caret, -, -⟩ :=
        (spelled next List.mem_cons_self).exists_first more
      rw [equal]
      intro isCaret
      exact single (congrArg some (caret (Option.some.inj isCaret)).1)

/-- What is written behind a control word ends it. -/
theorem endsWord_sourceList (spelled : ∀ token ∈ rest, token.Spelled)
    (adjoins : rest.IsChain Adjoins) :
    Cursor.EndsWord .initial (separator rest ++ (sourceList rest).toList) := by
  cases rest with
  | nil => exact Cursor.endsWord_nil
  | cons next more =>
      simp only [separator]
      split
      · exact Cursor.endsWord_special .space (by decide) (by decide)
      · next notLetter =>
          obtain ⟨first, behind, equal, caret, letter, kept⟩ :=
            (spelled next List.mem_cons_self).exists_first more
          rw [List.nil_append, equal]
          by_cases isMark : CategoryTable.initial.category first = .superscript
          · obtain ⟨rfl, rfl⟩ := caret (CategoryTable.eq_of_category_superscript isMark)
            apply Cursor.endsWord_mark isMark
            rw [CategoryTable.eq_of_category_superscript isMark]
            apply head?_sourceList_ne fun token member =>
              spelled token (List.mem_cons_of_mem _ member)
            intro doubled
            exact ((List.isChain_cons.mp adjoins).1 _ doubled).single rfl rfl
          · exact Cursor.endsWord_cons (fun isLetter => notLetter (letter isLetter)) isMark kept

/-- A carriage return would be read as a line feed. -/
theorem not_mem_sourceList {tokens : List Token} (spelled : ∀ token ∈ tokens, token.Spelled) :
    '\r' ∉ (sourceList tokens).toList := by
  induction tokens with
  | nil => simp [sourceList]
  | cons token rest ih =>
      have behind := ih fun token member => spelled token (List.mem_cons_of_mem _ member)
      cases spelled token List.mem_cons_self with
      | @word name isWord notBreak =>
          have inName : '\r' ∉ name.toList := by
            intro member
            have isLetter := Text.mem_asciiLetters isWord _ member
            revert isLetter
            decide
          have separated : '\r' ∉ separator rest := by
            cases rest with
            | nil => simp [separator]
            | cons next rest =>
                unfold separator
                split <;> simp
          rw [toList_sourceList_word isWord notBreak]
          simp [inName, separated, behind]
      | @symbol character isSymbol =>
          have other : character ≠ '\r' := by
            rintro rfl
            revert isSymbol
            decide
          rw [toList_sourceList_symbol isSymbol]
          simp [Ne.symm other, behind]
      | @character character category isStanding isCategory =>
          have facts : category ≠ .escape ∧ category ≠ .endOfList ∧ category ≠ .endOfLine := by
            revert isStanding
            cases category <;> decide
          have other : character ≠ '\r' := by
            rintro rfl
            apply facts.2.2
            rw [← isCategory]
            exact CategoryTable.category_special (by decide)
          rw [toList_sourceList_plain facts.1 facts.2.1]
          simp [ofChar, Ne.symm other, behind]
      | tie =>
          rw [toList_sourceList_tie]
          simp [behind]
      | space =>
          rw [toList_sourceList_plain (by decide) (by decide)]
          simp [space, behind]

end Token

namespace Reader

open Token (Spelled Adjoins separator sourceList)

variable {reader : Reader} {rest : List Token} {characters : List Char}

/-- The space behind a control word is passed over. -/
theorem ahead_separator (state : reader.state = .skipBlanks)
    (place : reader.cursor.At (separator rest ++ characters)) :
    ∃ after : Reader, after.cursor.At characters ∧
      reader.ahead .initial = after.ahead .initial := by
  unfold separator at place
  split at place
  · split at place
    · obtain ⟨after, behind, _, _, skipped⟩ := ahead_space CategoryTable.category_space place
      exact ⟨after, behind, skipped (by simp [state])⟩
    · exact ⟨reader, place, rfl⟩
  · exact ⟨reader, place, rfl⟩

/-- The tokens are read from their source.  A space can only come first in the middle of a
line. -/
theorem ahead_sourceList {tokens : List Token} (spelled : ∀ token ∈ tokens, token.Spelled)
    (adjoins : tokens.IsChain Adjoins)
    (begins : tokens.head? = some .space → reader.state = .midLine)
    (place : reader.cursor.At (sourceList tokens).toList) : reader.ahead .initial = tokens := by
  induction tokens generalizing reader with
  | nil => exact ahead_of_nil place
  | cons token rest ih =>
      rw [List.isChain_cons] at adjoins
      obtain ⟨follows, adjoins⟩ := adjoins
      have spelledRest : ∀ token ∈ rest, token.Spelled :=
        fun token member => spelled token (List.mem_cons_of_mem _ member)
      have goesOn : ∀ {after : Reader}, after.Midline (sourceList rest).toList →
          reader.ahead .initial = token :: after.ahead .initial →
          reader.ahead .initial = token :: rest := by
        intro after midline ahead
        rw [ahead, ih spelledRest adjoins (fun _ => midline.state) midline.place]
      cases spelled token List.mem_cons_self with
      | word isWord notBreak =>
          rw [Token.toList_sourceList_word isWord notBreak] at place
          obtain ⟨between, ahead, placeBetween, state⟩ :=
            ahead_word isWord (Token.endsWord_sourceList spelledRest adjoins) place
          obtain ⟨after, placeAfter, skipped⟩ := ahead_separator state placeBetween
          rw [ahead, skipped, ih spelledRest adjoins _ placeAfter]
          -- A space would have been skipped with the separator.
          intro isSpace
          have hidden := ((follows .space isSpace).visible rfl).2
          rw [Token.isControlWord_control isWord] at hidden
          cases hidden
      | symbol isSymbol =>
          rw [Token.toList_sourceList_symbol isSymbol] at place
          obtain ⟨notMark, kept, notLetter, notEnd⟩ := CategoryTable.category_symbol isSymbol
          obtain ⟨after, ahead, midline⟩ :=
            ahead_symbol CategoryTable.category_backslash rfl notMark kept notLetter notEnd place
          exact goesOn midline ahead
      | @character character category isStanding isCategory =>
          have facts : category ≠ .escape ∧ category ≠ .endOfList ∧
              (category ≠ .superscript → isPlain category) := by
            revert isStanding
            cases category <;> decide
          rw [Token.toList_sourceList_plain facts.1 facts.2.1, Token.ofChar,
            String.toList_singleton, List.singleton_append] at place
          by_cases isMark : category = .superscript
          · subst isMark
            obtain rfl := CategoryTable.eq_of_category_superscript isCategory
            have single : (sourceList rest).toList.head? ≠ some '^' := by
              apply Token.head?_sourceList_ne spelledRest
              intro doubled
              exact (follows _ doubled).single rfl rfl
            obtain ⟨after, ahead, midline⟩ := ahead_mark isCategory single place
            exact goesOn midline ahead
          · obtain ⟨after, ahead, midline⟩ := ahead_character isCategory (facts.2.2 isMark) place
            exact goesOn midline ahead
      | tie =>
          rw [Token.toList_sourceList_tie] at place
          obtain ⟨after, ahead, midline⟩ := ahead_active CategoryTable.category_tie place
          exact goesOn midline ahead
      | space =>
          rw [Token.toList_sourceList_plain (by decide) (by decide)] at place
          obtain ⟨after, placeAfter, _, ahead, _⟩ := ahead_space CategoryTable.category_space place
          rw [ahead (begins rfl), ih spelledRest adjoins _ placeAfter]
          -- Two spaces would be read as one.
          intro isSpace
          exact absurd rfl ((follows .space isSpace).visible rfl).1

theorem ahead_ofText_sourceList {tokens : List Token} (writable : Token.Writable tokens)
    (file : String) : (ofText (sourceList tokens) file).ahead .initial = tokens := by
  apply ahead_sourceList writable.spelled writable.adjoins
  · exact fun isSpace => absurd isSpace writable.begins
  · exact Cursor.at_ofText (Token.not_mem_sourceList writable.spelled)

/-- Reading the source of tokens that can be written gives the tokens back. -/
theorem tokens_sourceList {tokens : List Token}
    (writable : Token.Writable (tokens.map Token.bare)) (file : String) :
    ((ofText (sourceList tokens) file).tokens .initial).1.map Token.bare =
      tokens.map Token.bare := by
  rw [map_bare_tokens, ← Token.sourceList_bare]
  exact ahead_ofText_sourceList writable file

/-- A control word before a letter, a digit, a caret and another control sequence. -/
def mixedTokens : List Token :=
  [.control "bf", .letter '@', .control "relax", .other '1', .space, .control "a", .superscript,
    .control "b", .ofChar '%' .escape, .space, .active '~', .beginGroup, .control "c"]

theorem tokens_sourceList_mixed :
    Token.Writable (mixedTokens.map Token.bare) ∧
    Token.sourceList mixedTokens = "\\bf @\\relax1 \\a^\\b\\% ~\x7b\\c" ∧
    ((ofText (Token.sourceList mixedTokens) "<string>").tokens .initial).1.map Token.bare =
      mixedTokens.map Token.bare := by
  have writable : Token.Writable (mixedTokens.map Token.bare) := by
    refine ⟨?_, ?_, by decide⟩
    · change ∀ token ∈ mixedTokens, token.Spelled
      have word : ∀ name, Text.isControlWord name ∧ name ≠ "par" → (Token.control name).Spelled :=
        fun name facts => .word facts.1 facts.2
      have single : ∀ character category, category ∈ Token.standing ∧
          CategoryTable.initial.category character = category →
          (Token.ofChar character category).Spelled := fun _ _ facts => .character facts.1 facts.2
      simp only [mixedTokens, List.forall_mem_cons]
      exact ⟨word "bf" (by decide +kernel), single '@' .letter (by decide +kernel),
        word "relax" (by decide +kernel), single '1' .other (by decide +kernel), .space,
        word "a" (by decide +kernel), single '^' .superscript (by decide +kernel),
        word "b" (by decide +kernel), .symbol (by decide +kernel), .space, .tie,
        single '\x7b' .beginGroup (by decide +kernel), word "c" (by decide +kernel), by simp⟩
    · have adjoins : ∀ first second : Token, (first = .superscript → second ≠ .superscript) ∧
          (second = .space → first ≠ .space ∧ first.isControlWord = false) →
          first.Adjoins second := fun _ _ facts => ⟨facts.1, facts.2⟩
      simp only [mixedTokens, List.map_cons, List.map_nil, List.isChain_cons_cons]
      repeat' apply And.intro
      all_goals first | exact adjoins _ _ (by decide +kernel) | simp
  exact ⟨writable, by decide +kernel, tokens_sourceList writable "<string>"⟩

end Reader

end TexTree
