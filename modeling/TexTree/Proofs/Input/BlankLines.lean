import TexTree.Proofs.Input.Lines

/-!
# Blank lines break paragraphs

A run of blank lines gives one paragraph break, on its first line, unless the last token in
front of it is a paragraph break already (`Reader.blank_lines_break`).

The line end of a blank line is a break only for a reader that stands at the start of a
line.  Where an escape character has taken up the line end in front of the run, the reader is
in the state behind a blank instead, and the first blank line does no more than end that
state.
-/

namespace TexTree.Reader

/-- A line of spaces and tabs. -/
def IsBlankLine (line : List Char) : Prop :=
  line.getLast? = some '\n' ∧ ∀ character ∈ line.dropLast, character = ' ' ∨ character = '\t'

instance (line : List Char) : Decidable (IsBlankLine line) :=
  @instDecidableAnd _ _ _ (List.decidableBAll _ _)

/-- The reader at the start of the given lines, the first of which has the given number. -/
def atLine (reader : Reader) (lines : List (List Char)) (number : Nat) : Reader :=
  { reader with cursor := ⟨lines, number, 0⟩ }

/-- The paragraph break of a blank line. -/
def lineBreak (file : String) (number : Nat) (line : List Char) : Token :=
  (Token.control "par").at? (some ⟨file, number + 1, line.length⟩)

/-- The break of the first of some blank lines. -/
def breakOf (file : String) (number : Nat) : List (List Char) → List Token
  | [] => []
  | line :: _ => [lineBreak file number line]

section

variable {table : CategoryTable} {reader : Reader} {line : List Char} {rest : List (List Char)}

theorem nextChar?_blank {character : Char} (isSpace : table.category character = .space)
    (number column : Nat) :
    Cursor.nextChar? table ⟨(character :: line) :: rest, number, column⟩ =
      some (character, .space, ⟨line :: rest, number, column + 1⟩) := by
  have step : Cursor.step? table ⟨(character :: line) :: rest, number, column⟩ =
      some (character, .space, ⟨line :: rest, number, column + 1⟩) := by
    simp [Cursor.step?, Cursor.next?, Cursor.settle, Cursor.settleLines, isSpace]
  rw [Cursor.nextChar?_eq, step]
  rfl

theorem nextChar?_lineEnd (isLineEnd : table.category '\n' = .endOfLine) (number column : Nat) :
    Cursor.nextChar? table ⟨['\n'] :: rest, number, column⟩ =
      some ('\n', .endOfLine, ⟨[] :: rest, number, column + 1⟩) := by
  have step : Cursor.step? table ⟨['\n'] :: rest, number, column⟩ =
      some ('\n', .endOfLine, ⟨[] :: rest, number, column + 1⟩) := by
    simp [Cursor.step?, Cursor.next?, Cursor.settle, Cursor.settleLines, isLineEnd]
  rw [Cursor.nextChar?_eq, step]
  rfl

/-- In front of the middle of a line, blanks are passed. -/
theorem next_of_blanks {blanks : List Char} (outside : reader.state ≠ .midLine)
    (spaces : ∀ character ∈ blanks, table.category character = .space) (number column : Nat) :
    { reader with cursor := ⟨(blanks ++ line) :: rest, number, column⟩ }.next table =
      { reader with cursor := ⟨line :: rest, number, column + blanks.length⟩ }.next table := by
  induction blanks generalizing column with
  | nil => rfl
  | cons first blanks ih =>
      have found : Cursor.nextChar? table ⟨(first :: blanks ++ line) :: rest, number, column⟩ =
          some (first, .space, ⟨(blanks ++ line) :: rest, number, column + 1⟩) :=
        nextChar?_blank (spaces first List.mem_cons_self) number column
      rw [next_of_nextChar? found]
      simp only [react, if_neg outside, pass]
      rw [ih fun character later => spaces character (List.mem_cons_of_mem _ later),
        List.length_cons, Nat.add_assoc, Nat.add_comm 1]

/-- A blank line gives a break to a reader at the start of a line that has not just given
one. -/
theorem next_blankLine (isLineEnd : table.category '\n' = .endOfLine)
    (isSpace : table.category ' ' = .space) (isTab : table.category '\t' = .space)
    (blank : IsBlankLine line) (outside : reader.state ≠ .midLine) (number : Nat) :
    (reader.atLine (line :: rest) number).next table =
      if reader.state = .newLine ∧ reader.afterBreak = false then
        (some (lineBreak reader.file number line),
          { reader with cursor := ⟨[] :: rest, number, line.length⟩, afterBreak := true })
      else ({ reader with state := .newLine }.atLine rest (number + 1)).next table := by
  obtain ⟨isLast, blanks⟩ := blank
  obtain ⟨spaces, rfl⟩ := List.getLast?_eq_some_iff.mp isLast
  rw [List.dropLast_concat] at blanks
  have areSpaces : ∀ character ∈ spaces, table.category character = .space := by
    intro character member
    rcases blanks character member with rfl | rfl
    · exact isSpace
    · exact isTab
  rw [atLine, next_of_blanks outside areSpaces]
  have found : Cursor.nextChar? table ⟨['\n'] :: rest, number, 0 + spaces.length⟩ = _ :=
    nextChar?_lineEnd isLineEnd number (0 + spaces.length)
  rw [next_of_nextChar? found]
  -- Behind the line end, the cursor settles on the next line.
  have settles (state : LineState) (afterBreak : Bool) (column : Nat) :
      ({ reader with cursor := ⟨[] :: rest, number, column⟩, state, afterBreak } : Reader).next
          table = ({ reader with state, afterBreak }.atLine rest (number + 1)).next table := by
    rw [next_settle, next_settle _ (atLine _ _ _)]
    rfl
  obtain ⟨file, cursor, state, afterBreak⟩ := reader
  cases state with
  | midLine => exact absurd rfl outside
  | skipBlanks => exact settles .newLine afterBreak _
  | newLine =>
      cases afterBreak with
      | true => exact settles .newLine true _
      | false =>
          simp [react, lineEnd, Cursor.skipRestOfLine, emit, lineBreak, positionOf, Cursor.settle,
            Cursor.settleLines, Token.isNamed, Token.isControl, Token.control]

/-- Blank lines behind a break give nothing. -/
theorem tokens_blankLines_afterBreak (isLineEnd : table.category '\n' = .endOfLine)
    (isSpace : table.category ' ' = .space) (isTab : table.category '\t' = .space)
    {run : List (List Char)} (blank : ∀ line ∈ run, IsBlankLine line)
    (isNew : reader.state = .newLine) (broken : reader.afterBreak = true) (number : Nat) :
    (reader.atLine (run ++ rest) number).tokens table =
      (reader.atLine rest (number + run.length)).tokens table := by
  induction run generalizing number with
  | nil => rfl
  | cons line run ih =>
      have outside : reader.state ≠ .midLine := by simp [isNew]
      have skipped : (reader.atLine (line :: (run ++ rest)) number).next table = _ :=
        next_blankLine isLineEnd isSpace isTab (blank line List.mem_cons_self) outside number
      rw [if_neg (by simp [broken]), ← isNew] at skipped
      rw [List.cons_append, tokens_congr skipped,
        ih fun other later => blank other (List.mem_cons_of_mem _ later),
        List.length_cons, Nat.add_assoc, Nat.add_comm 1]

/-- At the start of a line, blank lines give one break, unless there has just been one. -/
theorem tokens_blankLines (isLineEnd : table.category '\n' = .endOfLine)
    (isSpace : table.category ' ' = .space) (isTab : table.category '\t' = .space)
    {run : List (List Char)} (blank : ∀ line ∈ run, IsBlankLine line)
    (isNew : reader.state = .newLine) (number : Nat) :
    ∃ later : Reader,
      ((reader.atLine (run ++ rest) number).tokens table).1 =
        (if reader.afterBreak then [] else breakOf reader.file number run) ++
          ((later.atLine rest (number + run.length)).tokens table).1 := by
  by_cases broken : reader.afterBreak = true
  · refine ⟨reader, ?_⟩
    rw [tokens_blankLines_afterBreak isLineEnd isSpace isTab blank isNew broken, if_pos broken,
      List.nil_append]
  · cases run with
    | nil => exact ⟨reader, by rw [if_neg broken]; rfl⟩
    | cons line run =>
        have outside : reader.state ≠ .midLine := by simp [isNew]
        have found : (reader.atLine (line :: (run ++ rest)) number).next table = _ :=
          next_blankLine isLineEnd isSpace isTab (blank line List.mem_cons_self) outside number
        rw [if_pos ⟨isNew, by simpa using broken⟩] at found
        let later : Reader := { reader with afterBreak := true }
        have settles : ({ reader with
            cursor := ⟨[] :: (run ++ rest), number, line.length⟩
            afterBreak := true } : Reader).next table =
              (later.atLine (run ++ rest) (number + 1)).next table := by
          rw [next_settle, next_settle _ (atLine _ _ _)]
          rfl
        have stillNew : later.state = .newLine := isNew
        have others : (later.atLine (run ++ rest) (number + 1)).tokens table = _ :=
          tokens_blankLines_afterBreak isLineEnd isSpace isTab
            (fun other inside => blank other (List.mem_cons_of_mem _ inside)) stillNew rfl
            (number + 1)
        refine ⟨later, ?_⟩
        rw [List.cons_append, tokens_of_next found, tokens_congr settles, if_neg broken, others,
          List.length_cons, Nat.add_assoc, Nat.add_comm 1]
        rfl

/-- Behind a blank, the first of the blank lines does not count. -/
theorem tokens_blankLines_behindBlank (isLineEnd : table.category '\n' = .endOfLine)
    (isSpace : table.category ' ' = .space) (isTab : table.category '\t' = .space)
    {run : List (List Char)} (blank : ∀ other ∈ line :: run, IsBlankLine other)
    (isBehindBlank : reader.state = .skipBlanks) (number : Nat) :
    ∃ later : Reader,
      ((reader.atLine (line :: run ++ rest) number).tokens table).1 =
        (if reader.afterBreak then [] else breakOf reader.file (number + 1) run) ++
          ((later.atLine rest (number + (line :: run).length)).tokens table).1 := by
  have outside : reader.state ≠ .midLine := by simp [isBehindBlank]
  have skipped : (reader.atLine (line :: (run ++ rest)) number).next table = _ :=
    next_blankLine isLineEnd isSpace isTab (blank line List.mem_cons_self) outside number
  rw [if_neg (by simp [isBehindBlank])] at skipped
  let fresh : Reader := { reader with state := .newLine }
  have isNew : fresh.state = .newLine := rfl
  obtain ⟨later, tokens⟩ := tokens_blankLines isLineEnd isSpace isTab
    (fun other inside => blank other (List.mem_cons_of_mem _ inside)) isNew (number + 1)
  refine ⟨later, ?_⟩
  rw [List.cons_append, tokens_congr skipped, tokens, List.length_cons, Nat.add_assoc,
    Nat.add_comm 1]

end

/-! ## The lines of a text -/

/-- A line with another one behind it is closed by a line feed. -/
theorem getLast?_of_mem_lines {text : List Char} {lines rest : List (List Char)}
    {next : List Char} (split : Cursor.splitLines text = lines ++ next :: rest) :
    ∀ line ∈ lines, line.getLast? = some '\n' := by
  fun_induction Cursor.splitLines text generalizing lines with
  | case1 => simp at split
  | case2 text ih =>
      intro line member
      cases lines with
      | nil => cases member
      | cons first lines =>
          obtain ⟨rfl, later⟩ := List.cons.inj split
          rcases List.mem_cons.mp member with rfl | inside
          · rfl
          · exact ih later line inside
  | case3 character text other empty ih =>
      intro line member
      cases lines with
      | nil => cases member
      | cons first lines =>
          have impossible := (List.cons.inj split).2
          simp at impossible
  | case4 character text other current more equal ih =>
      intro line member
      cases lines with
      | nil => cases member
      | cons first lines =>
          obtain ⟨rfl, later⟩ := List.cons.inj split
          have closed : ∀ line ∈ current :: lines, line.getLast? = some '\n' :=
            ih (by rw [equal, later]; rfl)
          rcases List.mem_cons.mp member with rfl | inside
          · have isLast := closed current List.mem_cons_self
            rw [List.getLast?_cons, isLast]
            rfl
          · exact closed line (List.mem_cons_of_mem _ inside)

theorem ended_of_closed {lines : List (List Char)}
    (closed : ∀ line ∈ lines, line.getLast? = some '\n') (line column : Nat) :
    Cursor.Ended ⟨lines, line, column⟩ := by
  intro last isLast
  rcases lines.eq_nil_or_concat with rfl | ⟨init, final, rfl⟩
  · cases isLast
  · have isClosed := closed final (by simp)
    simp only [List.concat_eq_append, List.flatten_append, List.flatten_singleton,
      List.getLast?_append, isClosed, Option.some_or, Option.some.injEq] at isLast
    exact isLast.symm

/-- The tokens of the first lines of a text, and the reader that has read them. -/
def readLines (file : String) (lines : List (List Char)) : List Token × Reader :=
  Reader.tokens .initial ⟨file, ⟨lines, 0, 0⟩, .newLine, false⟩

/-- An escape character has taken up the end of the last of the lines. -/
def takesUpLineEnd (file : String) (lines : List (List Char)) : Bool :=
  (readLines file lines).2.state == .skipBlanks

/-- The tokens that blank lines give behind the given lines. -/
def breaksBehind (file : String) (before run : List (List Char)) : List Token :=
  if takesUpLineEnd file before then breakOf file (before.length + 1) run.tail
  else if (readLines file before).1.getLast?.any (·.isNamed "par") then []
  else breakOf file before.length run

/-- Blank lines give one paragraph break, at the first of them, unless the last token in front
of them is a paragraph break: in this case they give none.  If an escape character has taken
up the line end in front of them, the last token is the control sequence without a name, and
the first blank line does not count. -/
theorem blank_lines_break (text file : String) {before run after : List (List Char)}
    (lines : Cursor.splitLines (Cursor.unifyLineEnds text.toList) = before ++ run ++ after)
    (nonempty : run ≠ []) (blank : ∀ line ∈ run, IsBlankLine line) :
    ∃ later,
      ((ofText text file).tokens .initial).1 =
        (readLines file before).1 ++ breaksBehind file before run ++ later ∧
      (∀ token ∈ (readLines file before).1, ∀ position ∈ token.position,
        position.line ≤ before.length) ∧
      (∀ token ∈ later, ∀ position ∈ token.position,
        before.length + run.length < position.line) ∧
      (takesUpLineEnd file before →
        ∃ token, (readLines file before).1.getLast? = some token ∧ token.text = "") := by
  have isLineEnd : CategoryTable.initial.category '\n' = .endOfLine := by decide +kernel
  have isSpace : CategoryTable.initial.category ' ' = .space := by decide +kernel
  have isTab : CategoryTable.initial.category '\t' = .space := by decide +kernel
  obtain ⟨first, run, rfl⟩ := List.exists_cons_of_ne_nil nonempty
  have closed : ∀ line ∈ before, line.getLast? = some '\n' :=
    getLast?_of_mem_lines (by rw [lines, List.append_assoc, List.cons_append])
  obtain ⟨earlier, behind, all⟩ : ∃ earlier behind, readLines file before = (earlier, behind) :=
    ⟨_, _, rfl⟩
  have started : Follows ⟨file, ⟨before, 0, 0⟩, .newLine, false⟩ none :=
    ⟨ended_of_closed closed 0 0, rfl, fun _ => .inl rfl, fun _ => rfl⟩
  obtain ⟨follows, empty, isBehind, sameFile, above, onto⟩ := tokens_onto isLineEnd started all
  rw [Option.or_none] at follows
  have whole : Cursor.total ⟨before, 0, 0⟩ = before.length := Nat.zero_add _
  rw [whole] at isBehind above
  -- The lines behind are read from the start of the first of them.
  have goesOn : behind.onto (first :: run ++ after) =
      behind.atLine (first :: run ++ after) before.length := by
    have column := follows.column empty
    rw [Reader.onto, atLine, Cursor.onto, empty, isBehind, column, List.nil_append]
  have all' : ((ofText text file).tokens .initial).1 = earlier ++
      ((behind.atLine (first :: run ++ after) before.length).tokens .initial).1 := by
    rw [← goesOn, ← onto, ofText, Cursor.ofText, lines, List.append_assoc]
    rfl
  have below : ∀ (reader : Reader) token,
      token ∈ ((reader.atLine after (before.length + (first :: run).length)).tokens .initial).1 →
        ∀ position ∈ token.position, before.length + (first :: run).length < position.line := by
    intro reader token member position isPosition
    obtain ⟨_, same, _, lower⟩ := position_of_mem_tokens member
    rw [same, Option.mem_some_iff] at isPosition
    exact isPosition ▸ lower
  have taken : takesUpLineEnd file before = (behind.state == .skipBlanks) := by
    rw [takesUpLineEnd, all]
  have breaks : breaksBehind file before (first :: run) =
      if behind.state == .skipBlanks then breakOf behind.file (before.length + 1) run
      else if behind.afterBreak then [] else breakOf behind.file before.length (first :: run) := by
    rw [breaksBehind, taken, all, follows.afterBreak, sameFile]
    rfl
  rw [all', breaks, taken, all]
  rcases follows.rests (by rw [empty]; rfl) with isNew | ⟨isBehindBlank, token, isLast, nameless⟩
  · obtain ⟨later, tokens⟩ :=
      tokens_blankLines isLineEnd isSpace isTab blank isNew before.length
    exact ⟨_, by rw [tokens, isNew, List.append_assoc]; rfl, above, below later, by simp [isNew]⟩
  · obtain ⟨later, tokens⟩ :=
      tokens_blankLines_behindBlank isLineEnd isSpace isTab blank isBehindBlank before.length
    have noBreak : behind.afterBreak = false := by
      rw [follows.afterBreak, isLast]
      simp [Token.isNamed, nameless]
    refine ⟨_, ?_, above, below later, fun _ => ⟨token, isLast, nameless⟩⟩
    rw [tokens, isBehindBlank, noBreak, List.append_assoc]
    rfl

/-- Two blank lines break the paragraph at the first of them.  One blank line behind an escape
character does not break it. -/
theorem blank_lines_break_escaped :
    (∃ later, ((ofText "a\n \n\nb" "").tokens .initial).1 =
        [(Token.ofChar 'a' .letter).at? (some ⟨"", 1, 1⟩), Token.space.at? (some ⟨"", 1, 2⟩),
          (Token.control "par").at? (some ⟨"", 2, 2⟩)] ++ later ∧
      ∀ token ∈ later, ∀ position ∈ token.position, 3 < position.line) ∧
    ∃ later, ((ofText "a\\\n\nb" "").tokens .initial).1 =
        [(Token.ofChar 'a' .letter).at? (some ⟨"", 1, 1⟩),
          (Token.control "").at? (some ⟨"", 1, 2⟩)] ++ later ∧
      ∀ token ∈ later, ∀ position ∈ token.position, 2 < position.line := by
  constructor
  · have lines : Cursor.splitLines (Cursor.unifyLineEnds "a\n \n\nb".toList) =
        [['a', '\n']] ++ [[' ', '\n'], ['\n']] ++ [['b']] := by decide +kernel
    obtain ⟨later, tokens, -, below, -⟩ :=
      blank_lines_break _ "" lines (by simp) (by decide +kernel)
    refine ⟨later, ?_, below⟩
    rw [tokens]
    congr 1
    decide +kernel
  · have lines : Cursor.splitLines (Cursor.unifyLineEnds "a\\\n\nb".toList) =
        [['a', '\\', '\n']] ++ [['\n']] ++ [['b']] := by decide +kernel
    obtain ⟨later, tokens, -, below, -⟩ :=
      blank_lines_break _ "" lines (by simp) (by decide +kernel)
    refine ⟨later, ?_, below⟩
    rw [tokens]
    congr 1
    decide +kernel

end TexTree.Reader
