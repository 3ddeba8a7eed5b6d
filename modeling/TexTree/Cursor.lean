import TexTree.Token

/-!
# Cursors

A cursor is a place in a text together with what is left to read from there.
The text is kept line by line, each line with the line end that closes it, and
reading a character with its category resolves the notation by which a doubled
superscript character introduces a character code, and drops ignored and invalid
characters.

Every successful read leaves strictly fewer characters (`unread_nextChar?`),
which is what makes all loops over a text end.
-/

namespace TexTree

/-- The lines that are left to read, the current one shortened by what has been
read, and the numbers of lines and columns passed so far. -/
structure Cursor where
  lines : List (List Char)
  line : Nat
  column : Nat
  deriving DecidableEq, Repr, Inhabited

namespace Cursor

/-- Write every line end as a line feed. -/
def unifyLineEnds : List Char → List Char
  | '\r' :: '\n' :: rest => '\n' :: unifyLineEnds rest
  | '\r' :: rest => '\n' :: unifyLineEnds rest
  | character :: rest => character :: unifyLineEnds rest
  | [] => []

/-- Cut a text behind each line feed. -/
def splitLines : List Char → List (List Char)
  | [] => []
  | '\n' :: rest => ['\n'] :: splitLines rest
  | character :: rest =>
      match splitLines rest with
      | [] => [[character]]
      | line :: lines => (character :: line) :: lines

/-- The start of a text. -/
def ofText (text : List Char) : Cursor := ⟨splitLines (unifyLineEnds text), 0, 0⟩

/-- The number of characters that are left. -/
def unread (cursor : Cursor) : Nat := cursor.lines.flatten.length

/-- Whether no line is left. -/
def atEnd (cursor : Cursor) : Bool := cursor.lines.isEmpty

/-- The end of the text. -/
def finish (cursor : Cursor) : Cursor :=
  match cursor.lines with
  | [] => cursor
  | lines => ⟨[], cursor.line + lines.length, 0⟩

/-- Pass lines of which nothing is left. -/
def settleLines : List (List Char) → Nat → Nat → Cursor
  | [] :: rest, line, _ => settleLines rest (line + 1) 0
  | lines, line, column => ⟨lines, line, column⟩

/-- Move to the next character, which may be on a later line. -/
def settle (cursor : Cursor) : Cursor :=
  settleLines cursor.lines cursor.line cursor.column

/-- The next character and the place behind it. -/
def next? (cursor : Cursor) : Option (Char × Cursor) :=
  let settled := cursor.settle
  match settled.lines with
  | (character :: rest) :: lines =>
      some (character, ⟨rest :: lines, settled.line, settled.column + 1⟩)
  | _ => none

/-- Pass the rest of the current line. -/
def skipRestOfLine (cursor : Cursor) : Cursor :=
  match cursor.lines with
  | [] => cursor
  | line :: lines => ⟨[] :: lines, cursor.line, cursor.column + line.length⟩

/-- Go to the start of the next line. -/
def nextLine (cursor : Cursor) : Cursor :=
  match cursor.lines with
  | [] => cursor
  | _ :: lines => ⟨lines, cursor.line + 1, 0⟩

/-- Drop everything behind the current line. -/
def cutAfterLine (cursor : Cursor) : Cursor :=
  { cursor with lines := cursor.lines.take 1 }

/-- What is left of the current line, without the line end. -/
def restOfLine (cursor : Cursor) : List Char :=
  (cursor.lines.headD []).filter (· != '\n')

/-- The digit value of a small hexadecimal digit. -/
def hexValue? (character : Char) : Option Nat :=
  if character.isDigit then some (character.toNat - 48)
  else if 97 ≤ character.toNat && character.toNat ≤ 102 then some (character.toNat - 87)
  else none

/-- The code given by two small hexadecimal digits. -/
def hexPair? (first second : Char) : Option Nat := do
  let high ← hexValue? first
  let low ← hexValue? second
  return 16 * high + low

/-- Behind a superscript character: the character that its repetition and a code
denote.  The code is two small hexadecimal digits, or one ASCII character that
is shifted by 64. -/
def coded? (mark : Char) (cursor : Cursor) : Option (Char × Cursor) :=
  match cursor.lines with
  | (again :: first :: rest) :: lines =>
      if again = mark ∧ first ≠ '\n' then
        let single : Option (Char × Cursor) :=
          if first.toNat < 128 then
            let code := if first.toNat < 64 then first.toNat + 64 else first.toNat - 64
            some (Char.ofNat code, ⟨rest :: lines, cursor.line, cursor.column + 2⟩)
          else none
        match rest with
        | second :: rest' =>
            match hexPair? first second with
            | some code => some (Char.ofNat code, ⟨rest' :: lines, cursor.line, cursor.column + 3⟩)
            | none => single
        | [] => single
      else none
  | _ => none

@[simp] theorem unread_mk (lines : List (List Char)) (line column : Nat) :
    unread ⟨lines, line, column⟩ = lines.flatten.length := rfl

theorem unread_settleLines (lines : List (List Char)) (line column : Nat) :
    (settleLines lines line column).unread = lines.flatten.length := by
  fun_induction settleLines lines line column with
  | case1 rest line column ih => simpa using ih
  | case2 lines line column _ => simp

@[simp] theorem unread_settle (cursor : Cursor) : cursor.settle.unread = cursor.unread :=
  unread_settleLines _ _ _

/-- Reading a character leaves one character less. -/
theorem unread_next? {cursor rest : Cursor} {character : Char}
    (found : cursor.next? = some (character, rest)) : rest.unread + 1 = cursor.unread := by
  rw [← unread_settle cursor]
  simp only [next?] at found
  split at found
  · next head tail lines equal =>
      simp only [Option.some.injEq, Prod.mk.injEq] at found
      obtain ⟨_, rfl⟩ := found
      simp only [unread, equal, List.flatten_cons, List.length_append, List.length_cons]
      omega
  · simp at found

/-- A coded character leaves fewer characters than there were. -/
theorem unread_coded? {mark character : Char} {cursor rest : Cursor}
    (found : cursor.coded? mark = some (character, rest)) : rest.unread < cursor.unread := by
  unfold coded? at found
  grind [unread]

@[simp] theorem unread_finish (cursor : Cursor) : cursor.finish.unread = 0 := by
  unfold finish
  split
  · next equal => simp [unread, equal]
  · simp

theorem unread_skipRestOfLine_le (cursor : Cursor) :
    cursor.skipRestOfLine.unread ≤ cursor.unread := by
  unfold skipRestOfLine
  split
  · exact Nat.le_refl _
  · next equal => simp [unread, equal]

/-- The character at the cursor with its category, resolving character codes,
and the place behind it. -/
def step? (table : CategoryTable) (cursor : Cursor) : Option (Char × Category × Cursor) :=
  match cursor.next? with
  | none => none
  | some (character, rest) =>
      match table.category character with
      | .superscript =>
          match rest.coded? character with
          | some (decoded, rest') => some (decoded, table.category decoded, rest')
          | none => some (character, .superscript, rest)
      | category => some (character, category, rest)

theorem unread_step? {table : CategoryTable} {cursor rest : Cursor} {character : Char}
    {category : Category} (found : cursor.step? table = some (character, category, rest)) :
    rest.unread < cursor.unread := by
  unfold step? at found
  split at found
  · simp at found
  · next head tail equal =>
      have shorter := unread_next? equal
      split at found
      · split at found
        · next decoded rest' coded =>
            have shorter' := unread_coded? coded
            simp only [Option.some.injEq, Prod.mk.injEq] at found
            obtain ⟨_, _, rfl⟩ := found
            omega
        · simp only [Option.some.injEq, Prod.mk.injEq] at found
          obtain ⟨_, _, rfl⟩ := found
          omega
      · simp only [Option.some.injEq, Prod.mk.injEq] at found
        obtain ⟨_, _, rfl⟩ := found
        omega

/-- Whether characters of the category are dropped while a text is read. -/
def isDropped (category : Category) : Bool := category == .ignored || category == .invalid

/-- The next character that is neither ignored nor invalid. -/
def nextChar? (table : CategoryTable) (cursor : Cursor) : Option (Char × Category × Cursor) :=
  match _found : cursor.step? table with
  | none => none
  | some (character, category, rest) =>
      if isDropped category then nextChar? table rest
      else some (character, category, rest)
termination_by cursor.unread
decreasing_by exact unread_step? _found

/-- Reading a character with its category leaves strictly fewer characters. -/
theorem unread_nextChar? {table : CategoryTable} {cursor rest : Cursor} {character : Char}
    {category : Category} (found : cursor.nextChar? table = some (character, category, rest)) :
    rest.unread < cursor.unread := by
  fun_induction nextChar? table cursor with
  | case1 => simp at found
  | case2 cursor _ _ middle step _ ih =>
      exact Nat.lt_trans (ih found) (unread_step? step)
  | case3 cursor _ _ middle step _ =>
      simp only [Option.some.injEq, Prod.mk.injEq] at found
      obtain ⟨_, _, rfl⟩ := found
      exact unread_step? step

/-- The letters at the cursor, as they continue the name of a control sequence,
and the place behind them. -/
def letters (table : CategoryTable) (cursor : Cursor) : List Char × Cursor :=
  match _found : cursor.nextChar? table with
  | some (character, .letter, rest) =>
      let (more, final) := letters table rest
      (character :: more, final)
  | _ => ([], cursor)
termination_by cursor.unread
decreasing_by exact unread_nextChar? _found

theorem unread_letters_le (table : CategoryTable) (cursor : Cursor) :
    (cursor.letters table).2.unread ≤ cursor.unread := by
  fun_induction letters table cursor with
  | case1 cursor character rest found more final equal ih =>
      have shorter := unread_nextChar? found
      simp only [equal] at ih
      show final.unread ≤ cursor.unread
      omega
  | case2 => exact Nat.le_refl _

/-- The characters before the first occurrence of a mark and the place behind
it.  The characters read so far are given in reverse order. -/
def until? (mark : List Char) (cursor : Cursor) (reversed : List Char) :
    Option (List Char × Cursor) :=
  match _found : cursor.next? with
  | none => none
  | some (character, rest) =>
      let read := character :: reversed
      if mark.reverse.isPrefixOf read then some ((read.drop mark.length).reverse, rest)
      else until? mark rest read
termination_by cursor.unread
decreasing_by
  have shorter := unread_next? _found
  omega

end Cursor

end TexTree
