import TexTree.Cursor

/-!
# Readers

A reader cuts one text into tokens.  It remembers whether it is at the start of
a line, behind a blank or in the middle of a line, because that decides whether
a blank or a line end is worth a token, and whether the last token was a
paragraph break, so that several blank lines break a paragraph only once.

The category table is a parameter of each step: it may change between any two
tokens.
-/

namespace TexTree

/-- Where on its line a reader is. -/
inductive LineState where
  | newLine
  | skipBlanks
  | midLine
  deriving DecidableEq, Repr, Inhabited

/-- The name of the state. -/
def LineState.name : LineState → String
  | .newLine => "NewLine"
  | .skipBlanks => "SkipBlank"
  | .midLine => "MidLine"

/-- A text that is being cut into tokens. -/
structure Reader where
  file : String
  cursor : Cursor
  state : LineState
  /-- Whether the last token was a paragraph break. -/
  afterBreak : Bool
  deriving DecidableEq, Repr, Inhabited

namespace Reader

/-- The start of a text that comes from the given file. -/
def ofText (text file : String) : Reader :=
  ⟨file, .ofText text.toList, .newLine, false⟩

/-- The number of characters that are left. -/
def unread (reader : Reader) : Nat := reader.cursor.unread

/-- Whether the end of the text has been reached. -/
def atEnd (reader : Reader) : Bool := reader.cursor.atEnd

/-- The position of a cursor in the text. -/
def positionOf (reader : Reader) (cursor : Cursor) : Position :=
  ⟨reader.file, cursor.line + 1, cursor.column + 1⟩

/-- The current position. -/
def position (reader : Reader) : Position := reader.positionOf reader.cursor

/-- What is left of the current line. -/
def preview (reader : Reader) : String := String.ofList reader.cursor.restOfLine

/-- Pass the rest of the current line. -/
def skipLine (reader : Reader) : Reader := { reader with cursor := reader.cursor.nextLine }

/-- Stop behind the current line. -/
def endInput (reader : Reader) : Reader := { reader with cursor := reader.cursor.cutAfterLine }

/-- The next character, whatever its category. -/
def readChar (reader : Reader) : Option Char × Reader :=
  match reader.cursor.next? with
  | some (character, cursor) => (some character, { reader with cursor, state := .midLine })
  | none => (none, { reader with cursor := reader.cursor.finish, state := .midLine })

/-- The characters before the first occurrence of a mark, which is passed as
well.  If there is none, the whole text has been read. -/
def readUntil (reader : Reader) (mark : String) : Option String × Reader :=
  match reader.cursor.until? mark.toList [] with
  | some (characters, cursor) =>
      (some (String.ofList characters), { reader with cursor, state := .midLine })
  | none => (none, { reader with cursor := reader.cursor.finish })

/-- A token behind which the reader is in the given state. -/
def emit (reader : Reader) (cursor : Cursor) (state : LineState) (token : Token) :
    Option Token × Reader :=
  (some token, { reader with cursor, state })

/-- A step without a token. -/
def pass (reader : Reader) (cursor : Cursor) (state : LineState) : Option Token × Reader :=
  (none, { reader with cursor, state })

/-- The control sequence behind an escape character.  A line end or the end of
the text gives the empty name, letters give a word, and any other character
gives its own name. -/
def escape (table : CategoryTable) (reader : Reader) (cursor : Cursor) :
    Option Token × Reader :=
  match cursor.nextChar? table with
  | none => reader.emit cursor.finish .skipBlanks (.control "")
  | some (_, .endOfLine, rest) => reader.emit rest .skipBlanks (.control "")
  | some (character, .letter, rest) =>
      let (more, final) := rest.letters table
      reader.emit final .skipBlanks (.control (String.ofList (character :: more)))
  | some (character, _, rest) => reader.emit rest .midLine (.ofChar character .escape)

/-- The effect of a line end: nothing behind a blank, a space in the middle of a
line, and a paragraph break on a blank line unless there has just been one. -/
def lineEnd (reader : Reader) (cursor : Cursor) : Option Token × Reader :=
  match reader.state with
  | .skipBlanks => reader.pass cursor .newLine
  | .midLine => reader.emit cursor .newLine .space
  | .newLine =>
      if reader.afterBreak then reader.pass cursor .newLine
      else reader.emit cursor .newLine (.control "par")

/-- The effect of a character behind which the cursor stands. -/
def react (table : CategoryTable) (reader : Reader) (character : Char) (category : Category)
    (cursor : Cursor) : Option Token × Reader :=
  match category with
  | .space =>
      if reader.state = .midLine then reader.emit cursor .skipBlanks .space
      else reader.pass cursor reader.state
  | .endOfLine => reader.lineEnd cursor.skipRestOfLine
  | .escape => reader.escape table cursor
  | .comment => reader.pass cursor.skipRestOfLine .newLine
  | .active => reader.emit cursor .midLine (.active character)
  | category => reader.emit cursor .midLine (.ofChar character category)

@[simp] theorem unread_emit (reader : Reader) (cursor : Cursor) (state : LineState)
    (token : Token) : (reader.emit cursor state token).2.unread = cursor.unread := rfl

@[simp] theorem unread_pass (reader : Reader) (cursor : Cursor) (state : LineState) :
    (reader.pass cursor state).2.unread = cursor.unread := rfl

theorem unread_escape_le (table : CategoryTable) (reader : Reader) (cursor : Cursor) :
    (reader.escape table cursor).2.unread ≤ cursor.unread := by
  unfold escape
  split
  · simp
  · next found => exact Nat.le_of_lt (Cursor.unread_nextChar? found)
  · next rest found =>
      have shorter := Cursor.unread_nextChar? found
      have final := Cursor.unread_letters_le table rest
      simp only [unread_emit]
      omega
  · next found => exact Nat.le_of_lt (Cursor.unread_nextChar? found)

theorem unread_lineEnd (reader : Reader) (cursor : Cursor) :
    (reader.lineEnd cursor).2.unread = cursor.unread := by
  unfold lineEnd
  split <;> try rfl
  split <;> rfl

/-- The effect of a character never brings back characters. -/
theorem unread_react_le (table : CategoryTable) (reader : Reader) (character : Char)
    (category : Category) (cursor : Cursor) :
    (reader.react table character category cursor).2.unread ≤ cursor.unread := by
  unfold react
  split
  · split <;> simp
  · rw [unread_lineEnd]
    exact Cursor.unread_skipRestOfLine_le cursor
  · exact unread_escape_le table reader cursor
  · exact Cursor.unread_skipRestOfLine_le cursor
  · simp
  · simp

/-- The next token, or nothing at the end of the text. -/
def next (table : CategoryTable) (reader : Reader) : Option Token × Reader :=
  match _found : reader.cursor.nextChar? table with
  | none => (none, { reader with cursor := reader.cursor.finish })
  | some (character, category, cursor) =>
      match _reaction : reader.react table character category cursor with
      | (some token, reader') =>
          (some (token.at? (some (reader.positionOf reader.cursor.settle))),
            { reader' with afterBreak := token.isNamed "par" })
      | (none, reader') => next table reader'
termination_by reader.unread
decreasing_by
  have shorter := Cursor.unread_nextChar? _found
  have same := unread_react_le table reader character category cursor
  rw [_reaction] at same
  exact Nat.lt_of_le_of_lt same shorter

/-- A token leaves strictly fewer characters than there were. -/
theorem unread_next {table : CategoryTable} {reader rest : Reader} {token : Token}
    (found : reader.next table = (some token, rest)) : rest.unread < reader.unread := by
  fun_induction next table reader with
  | case1 => simp at found
  | case2 reader character category cursor equal token' reader' reaction =>
      have shorter := Cursor.unread_nextChar? equal
      have same := unread_react_le table reader character category cursor
      simp only [Prod.mk.injEq] at found
      obtain ⟨_, rfl⟩ := found
      rw [reaction] at same
      exact Nat.lt_of_le_of_lt same shorter
  | case3 reader character category cursor equal reader' reaction ih =>
      have shorter := Cursor.unread_nextChar? equal
      have same := unread_react_le table reader character category cursor
      rw [reaction] at same
      exact Nat.lt_trans (ih found) (Nat.lt_of_le_of_lt same shorter)

/-- All tokens of the text under one table, and the reader at its end. -/
def tokens (table : CategoryTable) (reader : Reader) : List Token × Reader :=
  match _found : reader.next table with
  | (none, rest) => ([], rest)
  | (some token, rest) =>
      let (more, final) := tokens table rest
      (token :: more, final)
termination_by reader.unread
decreasing_by exact unread_next _found

end Reader

end TexTree
