import TexTree.Proofs.Document.VisibleText
import TexTree.Proofs.Engine.Arriving
import TexTree.Proofs.Input.Lexing

/-!
# Segments of plain documents

A segment is a part of a source that contributes a list, whatever is read behind it.
Segments can be put one after the other and inside of each other, so that what a
document contributes follows from what its words and commands contribute.

How a part is cut into tokens does not depend on what stands before it, except that
blanks may be left out.  Most parts give the same tokens everywhere (`Cuts`).
-/

namespace TexTree

namespace Text

/-- The characters of words. -/
def wordCharacters : List Char := CategoryTable.asciiLetters ++ "0123456789".toList

/-- A word of ASCII letters and digits. -/
structure Word where
  characters : List Char
  plain : characters.all wordCharacters.contains
  nonempty : characters ≠ []

/-- A word of one letter. -/
def Word.a : Word := ⟨['a'], by decide, by simp⟩

theorem Word.mem_wordCharacters (word : Word) :
    ∀ character ∈ word.characters, character ∈ wordCharacters := by
  simpa using word.plain

/-- Words with single spaces between them. -/
def spaced : List Word → List Char
  | [] => []
  | [word] => word.characters
  | word :: rest => word.characters ++ ' ' :: spaced rest

end Text

namespace Builtin

theorem isControlWord_of_mem_selfNames :
    ∀ name ∈ selfNames, Text.isControlWord name := by decide +kernel

theorem isControlWord_of_mem_environmentNames :
    ∀ name ∈ environmentNames, Text.isControlWord name := by decide +kernel

theorem isControlWord_of_mem_sectionNames :
    ∀ name ∈ sectionNames, Text.isControlWord name := by decide +kernel

end Builtin

namespace CategoryTable

theorem category_word {character : Char} (isWord : character ∈ Text.wordCharacters) :
    initial.category character = .letter ∨ initial.category character = .other := by
  have digits : ("0123456789".toList.all
      fun character => initial.category character == .other) = true := by decide +kernel
  rcases List.mem_append.mp isWord with isLetter | isDigit
  · exact .inl (category_letter isLetter)
  · exact .inr (beq_iff_eq.mp (List.all_eq_true.mp digits character isDigit))

end CategoryTable

namespace Input

/-- The braces among the tokens match. -/
def Balanced (tokens : List Token) : Prop := ∀ depth, braces depth tokens = some depth

variable {first second tokens : List Token} {token : Token}

theorem Balanced.nil : Balanced [] := fun _ => rfl

theorem Balanced.append (one : Balanced first) (two : Balanced second) :
    Balanced (first ++ second) := by
  intro depth
  rw [braces_append (one depth), two depth]

theorem Balanced.other (notOpening : token.category ≠ .beginGroup)
    (notClosing : token.category ≠ .endGroup) : Balanced [token] := by
  intro depth
  rw [braces_other notOpening notClosing]
  rfl

theorem Balanced.group (balanced : Balanced tokens) :
    Balanced (.beginGroup :: (tokens ++ [.endGroup])) := by
  intro depth
  rw [braces_opening rfl, braces_append (balanced (depth + 1)), braces_closing rfl]
  rfl

theorem Balanced.control (balanced : Balanced tokens) (name : String) :
    Balanced (.control name :: tokens) := by
  intro depth
  rw [braces_other (by simp [Token.control]) (by simp [Token.control])]
  exact balanced depth

theorem Balanced.letters (name : List Char) : Balanced (name.map Token.letter) := by
  induction name with
  | nil => exact .nil
  | cons letter name ih =>
      have single : Balanced [.letter letter] := .other (by simp [Token.letter, Token.ofChar])
        (by simp [Token.letter, Token.ofChar])
      exact single.append ih

/-- The tokens of a command with a name in braces. -/
def named (control name : String) : List Token := .control control :: Engine.braced name []

theorem Balanced.environment (balanced : Balanced tokens) (name : String) :
    Balanced (named "begin" name ++ (tokens ++ named "end" name)) := by
  have balancedName : ∀ control, Balanced (named control name) :=
    fun control => ((Balanced.letters name.toList).group).control control
  exact (balancedName "begin").append (balanced.append (balancedName "end"))

end Input

/-- Letters and other characters stand for themselves, except for the bracket. -/
theorem Token.ofChar_plain {character : Char} {category : Category}
    (isKind : category = .letter ∨ category = .other) (notBracket : character ≠ '[') :
    (Token.ofChar character category).Plain := by
  refine ⟨isKind.imp id .inl, ?_, ?_⟩
  · rcases isKind with rfl | rfl
    all_goals simp [Token.ofChar]
  · intro isBracket
    have same := congrArg String.toList isBracket
    simp [Token.ofChar, notBracket] at same

/-! ## Contributions -/

section Contributions

variable {β : Type} {gauge : Gauge β} {loose : Bool} {admits inner : Openings β → Prop}
  {tokens first second : List Token} {content content' inside : List β} {name : String}

/-- The tokens contribute a list between any openings that are admitted, whatever is behind
them. -/
def Contributes (gauge : Gauge β) (loose : Bool) (admits : Openings β → Prop)
    (tokens : List Token) (content : List β) : Prop :=
  ∀ (stack : Openings β) (behind : List Token) (more : List β), admits stack →
    Flow gauge loose stack behind more → Flow gauge loose stack (tokens ++ behind) (content ++ more)

namespace Contributes

theorem nil : Contributes gauge loose admits [] [] := fun _ _ _ _ next => next

theorem append (one : Contributes gauge loose admits first content)
    (two : Contributes gauge loose admits second content') :
    Contributes gauge loose admits (first ++ second) (content ++ content') := by
  intro stack behind more admitted next
  rw [List.append_assoc, List.append_assoc]
  exact one stack _ _ admitted (two stack behind more admitted next)

theorem character {token : Token} (plain : token.Plain) :
    Contributes gauge loose admits [token] (gauge.spelled token.text) :=
  fun _ _ _ _ next => .character plain next

/-- Something is read up to what closes it. -/
theorem upTo (body : Contributes gauge loose inner tokens inside) {stack : Openings β}
    (admitted : inner stack) {behind : List Token} (closed : Flow gauge loose stack behind []) :
    Flow gauge loose stack (tokens ++ behind) inside := by
  have contributed := body stack behind [] admitted closed
  rw [List.append_nil] at contributed
  exact contributed

theorem group (body : Contributes gauge loose inner tokens inside)
    (within : ∀ stack after, admits stack → inner ((.group, after) :: stack)) :
    Contributes gauge loose admits (.beginGroup :: (tokens ++ [.endGroup]))
      (gauge.element Opening.group.form inside) := by
  intro stack behind more admitted next
  have closed := body.upTo (within stack more admitted) (.closeGroup next)
  simpa using Flow.openGroup closed

/-- A command with its content. -/
theorem command (known : name ∈ Builtin.selfNames) (balanced : Input.Balanced tokens)
    (body : Contributes gauge loose inner tokens inside)
    (within : ∀ stack after, admits stack → inner ((.argument, after) :: stack)) :
    Contributes gauge loose admits (.control name :: .beginGroup :: (tokens ++ [.endGroup]))
      (gauge.element (.enclosing name) inside) := by
  intro stack behind more admitted next
  have closed := body.upTo (within stack more admitted) (.argumentEnd next)
  simpa using Flow.command known (balanced 0) closed

/-- An environment. -/
theorem environment (known : name ∈ Builtin.environmentNames)
    (body : Contributes gauge loose inner tokens inside)
    (within : ∀ stack after, admits stack → inner ((.environment name, after) :: stack)) :
    Contributes gauge loose admits
      (Input.named "begin" name ++ (tokens ++ Input.named "end" name))
      (gauge.element (Opening.environment name).form inside) := by
  intro stack behind more admitted next
  have closed := body.upTo (within stack more admitted) (.endEnvironment known next)
  simpa [Input.named, Engine.braced] using Flow.beginEnvironment known closed

/-- A formula.  Something stands in it, since two delimiters in a row would mean something
else. -/
theorem formula {token : Token} (notShift : token.category ≠ .mathShift)
    (body : Contributes gauge loose inner (token :: tokens) inside)
    (within : ∀ stack after, admits stack → inner ((.formula, after) :: stack))
    (outside : ∀ stack, admits stack → ∀ entry ∈ stack, entry.1 ≠ .formula) :
    Contributes gauge loose admits (.mathShift :: (token :: tokens ++ [.mathShift]))
      (gauge.element Opening.formula.form inside) := by
  intro stack behind more admitted next
  have closed := body.upTo (within stack more admitted) (.closeFormula next)
  simpa using Flow.openFormula notShift (outside stack admitted) closed

/-- A heading, whose title contributes nothing. -/
theorem heading (known : name ∈ Builtin.sectionNames) (balanced : Input.Balanced tokens)
    (title : Contributes gauge true inner tokens inside)
    (within : ∀ stack after, admits stack → inner ((.argument, after) :: stack)) :
    Contributes gauge true admits (.control name :: .beginGroup :: (tokens ++ [.endGroup])) [] := by
  intro stack behind more admitted next
  have closed := title.upTo (within stack more admitted) (.argumentEnd next)
  simpa using Flow.heading rfl known (balanced 0) closed

end Contributes

end Contributions

/-! ## Cutting -/

namespace Written

/-- A group. -/
def group (content : List Char) : List Char := ['\x7b'] ++ (content ++ ['\x7d'])

/-- A command with its argument. -/
def command (name : String) (content : List Char) : List Char :=
  ('\\' :: name.toList ++ ['\x7b']) ++ (content ++ ['\x7d'])

/-- An environment with its content. -/
def environment (name : String) (content : List Char) : List Char :=
  command "begin" name.toList ++ (content ++ command "end" name.toList)

/-- A command without arguments. -/
def bare (name : String) : List Char := '\\' :: name.toList ++ [' ']

end Written

/-- The characters are cut into the given tokens wherever they stand. -/
structure Cuts (characters : List Char) (tokens : List Token) : Prop where
  /-- Carriage returns would be replaced before. -/
  plain : '\r' ∉ characters
  short : tokens.length ≤ characters.length
  reads : ∀ (rest : List Char) (reader : Reader), reader.cursor.At (characters ++ rest) →
    ∃ after : Reader, after.cursor.At rest ∧
      reader.ahead .initial = tokens ++ after.ahead .initial

/-- A reader at the beginning of a text. -/
theorem Reader.at_ofList {characters : List Char} (plain : '\r' ∉ characters) (file : String) :
    (Reader.ofText (String.ofList characters) file).cursor.At characters := by
  have start := Cursor.at_ofText plain
  have same : (String.ofList characters).toList = characters := String.toList_ofList
  change (Cursor.ofText (String.ofList characters).toList).At characters
  rw [same]
  exact start

namespace Cuts

variable {first second : List Char} {tokens tokens' : List Token}

/-- A text that is cut into tokens has them ahead. -/
theorem ahead_ofText (cuts : Cuts first tokens) (file : String) :
    (Reader.ofText (String.ofList first) file).ahead .initial = tokens := by
  have place : (Reader.ofText (String.ofList first) file).cursor.At (first ++ []) := by
    rw [List.append_nil]
    exact Reader.at_ofList cuts.plain file
  obtain ⟨after, placeAfter, ahead⟩ := cuts.reads [] _ place
  rw [ahead, Reader.ahead_of_nil placeAfter, List.append_nil]

theorem nil : Cuts [] [] :=
  ⟨by simp, Nat.le_refl _, fun _ reader place => ⟨reader, place, rfl⟩⟩

theorem append (one : Cuts first tokens) (two : Cuts second tokens') :
    Cuts (first ++ second) (tokens ++ tokens') := by
  refine ⟨by simp [one.plain, two.plain], ?_, ?_⟩
  · rw [List.length_append, List.length_append]
    exact Nat.add_le_add one.short two.short
  · intro rest reader place
    rw [List.append_assoc] at place
    obtain ⟨between, placeBetween, ahead⟩ := one.reads _ reader place
    obtain ⟨after, placeAfter, aheadBetween⟩ := two.reads _ between placeBetween
    exact ⟨after, placeAfter, by rw [ahead, aheadBetween, List.append_assoc]⟩

/-- A character that stands for itself. -/
theorem character {character : Char} {category : Category}
    (isCategory : CategoryTable.initial.category character = category)
    (plain : Reader.isPlain category) : Cuts [character] [.ofChar character category] := by
  refine ⟨?_, Nat.le_refl _, ?_⟩
  · have isLineEnd : CategoryTable.initial.category '\r' = .endOfLine :=
      CategoryTable.category_special (by decide)
    intro member
    rw [← List.mem_singleton.mp member, isLineEnd] at isCategory
    subst isCategory
    cases plain
  · intro rest reader place
    obtain ⟨after, ahead, midline⟩ := Reader.ahead_character isCategory plain place
    exact ⟨after, midline.place, ahead⟩

theorem beginGroup : Cuts ['\x7b'] [.beginGroup] :=
  character (CategoryTable.category_special (by decide)) rfl

theorem endGroup : Cuts ['\x7d'] [.endGroup] :=
  character (CategoryTable.category_special (by decide)) rfl

theorem mathShift : Cuts ['$'] [.mathShift] :=
  character (CategoryTable.category_special (by decide)) rfl

theorem letters {name : List Char} (isWord : ∀ letter ∈ name, letter ∈ CategoryTable.asciiLetters) :
    Cuts name (name.map Token.letter) := by
  induction name with
  | nil => exact nil
  | cons letter name ih =>
      have isLetter := CategoryTable.category_letter (isWord letter List.mem_cons_self)
      exact (character isLetter rfl).append
        (ih fun other member => isWord other (List.mem_cons_of_mem _ member))

theorem group (content : Cuts first tokens) :
    Cuts (Written.group first) (.beginGroup :: (tokens ++ [.endGroup])) :=
  beginGroup.append (content.append endGroup)

/-- A control word before a brace. -/
theorem opening {name : String} (isWord : Text.isControlWord name) :
    Cuts ('\\' :: name.toList ++ ['\x7b']) [.control name, .beginGroup] := by
  have plain := (letters (Text.mem_asciiLetters isWord)).plain
  refine ⟨by simp [plain], by simp, ?_⟩
  intro rest reader place
  have ends : Cursor.EndsWord .initial (['\x7b'] ++ rest) :=
    Cursor.endsWord_special .beginGroup (by decide) (by decide)
  rw [List.append_assoc] at place
  obtain ⟨between, ahead, placeBetween, _⟩ := Reader.ahead_word isWord ends place
  obtain ⟨after, placeAfter, aheadBetween⟩ := beginGroup.reads _ between placeBetween
  exact ⟨after, placeAfter, by rw [ahead, aheadBetween]; rfl⟩

theorem command {name : String} (isWord : Text.isControlWord name)
    (content : Cuts first tokens) :
    Cuts (Written.command name first)
      (.control name :: .beginGroup :: (tokens ++ [.endGroup])) :=
  (opening isWord).append (content.append endGroup)

/-- A command without arguments.  The space behind it is not read as a token. -/
theorem bare {name : String} (isWord : Text.isControlWord name) :
    Cuts (Written.bare name) [.control name] := by
  have plain := (letters (Text.mem_asciiLetters isWord)).plain
  refine ⟨by simp [Written.bare, plain], by simp [Written.bare], ?_⟩
  intro rest reader place
  have ends : Cursor.EndsWord .initial ([' '] ++ rest) :=
    Cursor.endsWord_special .space (by decide) (by decide)
  rw [Written.bare, List.append_assoc] at place
  obtain ⟨between, ahead, placeBetween, skips⟩ := Reader.ahead_word isWord ends place
  obtain ⟨after, placeAfter, -, -, unspaced⟩ :=
    Reader.ahead_space CategoryTable.category_space placeBetween
  exact ⟨after, placeAfter, by rw [ahead, unspaced (by simp [skips])]; rfl⟩

/-- The same characters several times. -/
theorem replicate (cuts : Cuts first tokens) (count : Nat) :
    Cuts (List.replicate count first).flatten (List.replicate count tokens).flatten := by
  induction count with
  | zero => exact nil
  | succ count ih =>
      rw [List.replicate_succ, List.replicate_succ, List.flatten_cons, List.flatten_cons]
      exact cuts.append ih

/-- A control word with a name in braces. -/
theorem named {control name : String} (isWord : Text.isControlWord control)
    (isName : Text.isControlWord name) :
    Cuts (Written.command control name.toList) (.control control :: Engine.braced name []) :=
  command isWord (letters (Text.mem_asciiLetters isName))

theorem environment {name : String} (isName : Text.isControlWord name)
    (content : Cuts first tokens) :
    Cuts (Written.environment name first)
      (Input.named "begin" name ++ (tokens ++ Input.named "end" name)) :=
  (named (by decide) isName).append (content.append (named (by decide) isName))

end Cuts

/-! ## Segments -/

/-- The characters are read, whatever stands behind them, as tokens that contribute a text
between the given openings. -/
structure Segment (admits : Openings Char → Prop) (characters text : List Char) : Prop where
  plain : '\r' ∉ characters
  reads : ∀ (rest : List Char) (reader : Reader), reader.cursor.At (characters ++ rest) →
    ∃ (tokens : List Token) (after : Reader), after.cursor.At rest ∧
      reader.ahead .initial = tokens ++ after.ahead .initial ∧
      tokens.length ≤ characters.length ∧ Input.Balanced tokens ∧
      Contributes .visible true admits tokens text

namespace Segment

variable {admits inner : Openings Char → Prop} {characters first second opening closing : List Char}
  {text text' inside : List Char} {tokens openTokens closeTokens : List Token}

theorem of_cuts (cuts : Cuts characters tokens) (balanced : Input.Balanced tokens)
    (contributes : Contributes .visible true admits tokens text) :
    Segment admits characters text := by
  refine ⟨cuts.plain, ?_⟩
  intro rest reader place
  obtain ⟨after, placeAfter, ahead⟩ := cuts.reads rest reader place
  exact ⟨tokens, after, placeAfter, ahead, cuts.short, balanced, contributes⟩

theorem nil : Segment admits [] [] := of_cuts .nil .nil .nil

theorem append (one : Segment admits first text) (two : Segment admits second text') :
    Segment admits (first ++ second) (text ++ text') := by
  refine ⟨by simp [one.plain, two.plain], ?_⟩
  intro rest reader place
  rw [List.append_assoc] at place
  obtain ⟨tokens, between, placeBetween, ahead, short, balanced, contributes⟩ :=
    one.reads _ reader place
  obtain ⟨tokens', after, placeAfter, ahead', short', balanced', contributes'⟩ :=
    two.reads rest between placeBetween
  refine ⟨tokens ++ tokens', after, placeAfter, ?_, ?_, balanced.append balanced',
    contributes.append contributes'⟩
  · rw [ahead, ahead', List.append_assoc]
  · rw [List.length_append, List.length_append]
    exact Nat.add_le_add short short'

/-- A segment between two delimiters. -/
theorem enclose (body : Segment inner characters inside) (opens : Cuts opening openTokens)
    (closes : Cuts closing closeTokens)
    (balanced : ∀ tokens, Input.Balanced tokens →
      Input.Balanced (openTokens ++ (tokens ++ closeTokens)))
    (contributes : ∀ tokens, Input.Balanced tokens → Contributes .visible true inner tokens inside →
      Contributes .visible true admits (openTokens ++ (tokens ++ closeTokens)) text) :
    Segment admits (opening ++ (characters ++ closing)) text := by
  refine ⟨by simp [opens.plain, body.plain, closes.plain], ?_⟩
  intro rest reader place
  rw [List.append_assoc, List.append_assoc] at place
  obtain ⟨start, placeStart, aheadOpening⟩ := opens.reads _ reader place
  obtain ⟨tokens, between, placeBetween, ahead, short, isBalanced, contributesInside⟩ :=
    body.reads _ start placeStart
  obtain ⟨after, placeAfter, aheadClosing⟩ := closes.reads _ between placeBetween
  refine ⟨openTokens ++ (tokens ++ closeTokens), after, placeAfter, ?_, ?_,
    balanced tokens isBalanced, contributes tokens isBalanced contributesInside⟩
  · rw [aheadOpening, ahead, aheadClosing]
    simp only [List.append_assoc]
  · have shortOpening := opens.short
    have shortClosing := closes.short
    simp only [List.length_append]
    omega

theorem group (body : Segment inner characters inside)
    (within : ∀ stack after, admits stack → inner ((.group, after) :: stack)) :
    Segment admits (Written.group characters) inside :=
  body.enclose .beginGroup .endGroup (fun _ balanced => balanced.group)
    fun _ _ contributes => contributes.group within

/-- A command with its content. -/
theorem command {name : String} (known : name ∈ Builtin.selfNames)
    (body : Segment inner characters inside)
    (within : ∀ stack after, admits stack → inner ((.argument, after) :: stack)) :
    Segment admits (Written.command name characters) inside :=
  body.enclose (.opening (Builtin.isControlWord_of_mem_selfNames name known)) .endGroup
    (fun _ balanced => balanced.group.control name)
    fun _ balanced contributes => contributes.command known balanced within

/-- An environment. -/
theorem environment {name : String} (known : name ∈ Builtin.environmentNames)
    (body : Segment inner characters inside)
    (within : ∀ stack after, admits stack → inner ((.environment name, after) :: stack)) :
    Segment admits (Written.environment name characters) inside := by
  have isName := Builtin.isControlWord_of_mem_environmentNames name known
  exact body.enclose (.named (by decide) isName) (.named (by decide) isName)
    (fun _ balanced => balanced.environment name)
    fun _ _ contributes => contributes.environment known within

/-- A heading.  Its title is no text. -/
theorem heading {name : String} (known : name ∈ Builtin.sectionNames)
    (title : Segment inner characters inside)
    (within : ∀ stack after, admits stack → inner ((.argument, after) :: stack)) :
    Segment admits (Written.command name characters) [] :=
  title.enclose (.opening (Builtin.isControlWord_of_mem_sectionNames name known)) .endGroup
    (fun _ balanced => balanced.group.control name)
    fun _ balanced contributes => contributes.heading known balanced within

/-- A character of a word. -/
theorem character {character : Char} (isWord : character ∈ Text.wordCharacters) :
    Segment admits [character] [character] := by
  have facts : (Text.wordCharacters.all fun character =>
      character != '[' && !Text.isBlank character) = true := by decide +kernel
  have fact := List.all_eq_true.mp facts character isWord
  simp only [Bool.and_eq_true, bne_iff_ne, ne_eq, Bool.not_eq_true'] at fact
  have general : ∀ category, CategoryTable.initial.category character = category →
      category = .letter ∨ category = .other → Segment admits [character] [character] := by
    intro category isCategory isKind
    have plain := Token.ofChar_plain isKind fact.1
    have isPlain : Reader.isPlain category := by
      rcases isKind with rfl | rfl
      all_goals rfl
    have other : category ≠ .beginGroup ∧ category ≠ .endGroup := by
      rcases isKind with rfl | rfl
      all_goals simp
    refine of_cuts (.character isCategory isPlain) (.other other.1 other.2) ?_
    have spelled : Gauge.visible.spelled (String.singleton character) = [character] := by
      simp [Gauge.visible, Text.visible, fact.2]
    have single : Contributes .visible true admits _ _ := .character plain
    rw [Token.ofChar, spelled] at single
    exact single
  exact general _ rfl (CategoryTable.category_word isWord)

theorem word (word : Text.Word) : Segment admits word.characters word.characters := by
  have all : ∀ characters : List Char,
      (∀ character ∈ characters, character ∈ Text.wordCharacters) →
        Segment admits characters characters := by
    intro characters
    induction characters with
    | nil => exact fun _ => nil
    | cons first rest ih =>
        intro isWord
        exact (character (isWord first List.mem_cons_self)).append
          (ih fun other member => isWord other (List.mem_cons_of_mem _ member))
  exact all word.characters word.mem_wordCharacters

/-- A space may be a token or not. -/
theorem space : Segment admits [' '] [] := by
  refine ⟨by decide, ?_⟩
  intro rest reader place
  obtain ⟨after, placeAfter, ahead, _⟩ :=
    Reader.ahead_space CategoryTable.category_space place
  have plain : Token.space.Plain := ⟨.inr (.inr rfl), fun _ => rfl, by decide⟩
  rcases ahead with nothing | space
  · exact ⟨[], after, placeAfter, nothing, by simp, .nil, .nil⟩
  · exact ⟨[.space], after, placeAfter, space, by simp, .other (by decide) (by decide),
      .character plain⟩

/-- The spaces between words are no text. -/
theorem spaced (words : List Text.Word) :
    Segment admits (Text.spaced words) (words.flatMap Text.Word.characters) := by
  fun_induction Text.spaced words with
  | case1 => exact nil
  | case2 first =>
      rw [List.flatMap_singleton]
      exact word first
  | case3 first rest _ ih => exact (word first).append (space.append ih)

/-- A line end may be nothing, a space or a paragraph break. -/
theorem lineEnd : Segment admits ['\n'] [] := by
  refine ⟨by decide, ?_⟩
  intro rest reader place
  have isLineEnd : CategoryTable.initial.category '\n' = .endOfLine :=
    CategoryTable.category_special (by decide)
  obtain ⟨after, placeAfter, ahead⟩ := Reader.ahead_lineEnd isLineEnd place
  have plain : Token.space.Plain := ⟨.inr (.inr rfl), fun _ => rfl, by decide⟩
  rcases ahead with nothing | space | pause
  · exact ⟨[], after, placeAfter, nothing, by simp, .nil, .nil⟩
  · exact ⟨[.space], after, placeAfter, space, by simp, .other (by decide) (by decide),
      .character plain⟩
  · refine ⟨[.control "par"], after, placeAfter, pause, by simp, Input.Balanced.nil.control _, ?_⟩
    exact fun stack behind more _ next => .bare rfl (by decide) next

/-- A command without arguments. -/
theorem bare {name : String} (isWord : Text.isControlWord name)
    (contributes : Contributes .visible true admits [.control name] []) :
    Segment admits (Written.bare name) [] :=
  of_cuts (.bare isWord) (Input.Balanced.nil.control name) contributes

/-- A declaration. -/
theorem declaration {name : String} (known : name ∈ Builtin.declarationNames) :
    Segment admits (Written.bare name) [] := by
  have facts : ∀ name ∈ Builtin.declarationNames,
      Text.isControlWord name ∧ name ∈ Builtin.bareNames := by decide +kernel
  obtain ⟨isWord, isBare⟩ := facts name known
  exact bare isWord fun stack behind more _ next => .bare rfl isBare next

/-- The place of an item is directly inside of a list. -/
def InList (stack : Openings Char) : Prop :=
  ∃ after outer, stack = (.environment "itemize", after) :: outer

theorem item : Segment InList (Written.bare "item") [] := by
  refine bare (by decide) ?_
  rintro _ behind more ⟨after, outer, rfl⟩ next
  exact .item rfl next

end Segment

end TexTree
