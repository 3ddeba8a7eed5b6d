import Mathlib.Data.Prod.Lex
import TexTree.Proofs.Input.Lexing

/-!
# Progress of readers

A reader goes forward only.  Whatever the categories are, and even if they change
between any two tokens, a token is taken from a place at or behind the reader, and
the reader stands strictly behind that place afterwards (`Reader.next_some`).  At the
end of the text no further token follows (`Reader.next_none`).

What holds of one token holds of all that are ever read, by induction on the calls
(`Reader.calls_progress`).
-/

namespace TexTree

/-! ## Tables and tokens -/

/-- The categories of the characters that become tokens as they are. -/
def Category.ofTokens : List Category :=
  [.beginGroup, .endGroup, .mathShift, .alignmentTab, .parameter, .superscript, .subscript, .space,
    .letter, .other]

theorem Category.mem_ofTokens {category : Category} (known : category ∈ Category.ofCharacters)
    (kept : Cursor.isDropped category = false)
    (other : category ∉ [.escape, .endOfLine, .comment, .active]) :
    category ∈ Category.ofTokens := by
  cases category <;> simp_all [ofCharacters, ofTokens, Cursor.isDropped]

namespace Token

/-- A control sequence, or one character of a category that becomes a token. -/
def IsCut (token : Token) : Prop :=
  token.isControl ∨
    ∃ character, token.text = String.singleton character ∧ token.category ∈ Category.ofTokens

/-- Both tokens have positions, and that of the first one is on an earlier line, or in an
earlier column of the same line. -/
def Before (first second : Token) : Prop :=
  ∃ position ∈ first.position, ∃ later ∈ second.position,
    toLex (position.line, position.column) < toLex (later.line, later.column)

end Token

/-! ## Cursors -/

namespace Cursor

/-- The line and the column.  Places are ordered by lines first. -/
def place (cursor : Cursor) : ℕ ×ₗ ℕ := toLex (cursor.line, cursor.column)

variable {table : CategoryTable} {cursor later rest : Cursor} {character : Char}
  {category : Category}

theorem place_lt_iff : cursor.place < later.place ↔
    cursor.line < later.line ∨ cursor.line = later.line ∧ cursor.column < later.column :=
  Prod.Lex.toLex_lt_toLex

theorem place_le_iff : cursor.place ≤ later.place ↔
    cursor.line < later.line ∨ cursor.line = later.line ∧ cursor.column ≤ later.column :=
  Prod.Lex.toLex_le_toLex

theorem place_le_settleLines (lines : List (List Char)) (line column : Nat) :
    toLex (line, column) ≤ (settleLines lines line column).place := by
  fun_induction settleLines lines line column with
  | case1 rest line column ih =>
      exact (Prod.Lex.toLex_le_toLex.mpr (.inl (Nat.lt_succ_self line))).trans ih
  | case2 lines line column _ => exact le_refl _

theorem place_le_settle (cursor : Cursor) : cursor.place ≤ cursor.settle.place :=
  place_le_settleLines _ _ _

/-- A character is read from the place where the cursor settles. -/
theorem place_settle_lt_next? (found : cursor.next? = some (character, rest)) :
    cursor.settle.place < rest.place := by
  simp only [next?] at found
  split at found
  · simp only [Option.some.injEq, Prod.mk.injEq] at found
    obtain ⟨-, rfl⟩ := found
    exact place_lt_iff.mpr (.inr ⟨rfl, Nat.lt_succ_self _⟩)
  · cases found

theorem place_lt_coded? {mark : Char} (found : cursor.coded? mark = some (character, rest)) :
    cursor.place < rest.place := by
  rw [place_lt_iff]
  unfold coded? at found
  grind

theorem place_settle_lt_step? (found : cursor.step? table = some (character, category, rest)) :
    cursor.settle.place < rest.place := by
  unfold step? at found
  split at found
  · cases found
  · next first middle read =>
      have forward := place_settle_lt_next? read
      split at found
      · split at found
        · next decoded behind coded =>
            cases found
            exact forward.trans (place_lt_coded? coded)
        · cases found
          exact forward
      · cases found
        exact forward

theorem place_settle_lt_nextChar?
    (found : cursor.nextChar? table = some (character, category, rest)) :
    cursor.settle.place < rest.place := by
  fun_induction nextChar? table cursor with
  | case1 => cases found
  | case2 cursor _ _ middle step _ ih =>
      calc cursor.settle.place
        _ < middle.place := place_settle_lt_step? step
        _ ≤ middle.settle.place := place_le_settle middle
        _ < rest.place := ih found
  | case3 cursor _ _ middle step _ =>
      cases found
      exact place_settle_lt_step? step

theorem place_lt_nextChar? (found : cursor.nextChar? table = some (character, category, rest)) :
    cursor.place < rest.place :=
  (place_le_settle cursor).trans_lt (place_settle_lt_nextChar? found)

/-- The letters of a name are looked at one by one, and the first other character is given
back. -/
theorem place_le_letters (table : CategoryTable) (cursor : Cursor) :
    cursor.place ≤ (cursor.letters table).2.place := by
  fun_induction letters table cursor with
  | case1 cursor character rest found more final equal ih =>
      rw [equal] at ih
      exact (place_lt_nextChar? found).le.trans ih
  | case2 => exact le_refl _

theorem place_le_finish (cursor : Cursor) : cursor.place ≤ cursor.finish.place := by
  unfold finish
  split
  · exact le_refl _
  · next nonempty =>
      have positive : 0 < cursor.lines.length := List.length_pos_iff.mpr nonempty
      exact place_le_iff.mpr (.inl (Nat.lt_add_of_pos_right positive))

theorem place_le_skipRestOfLine (cursor : Cursor) :
    cursor.place ≤ cursor.skipRestOfLine.place := by
  unfold skipRestOfLine
  split
  · exact le_refl _
  · exact place_le_iff.mpr (.inr ⟨rfl, Nat.le_add_right _ _⟩)

/-- The categories that reach a reader. -/
theorem category_of_nextChar?
    (found : cursor.nextChar? table = some (character, category, rest)) :
    isDropped category = false ∧ category ∈ Category.ofCharacters := by
  fun_induction nextChar? table cursor with
  | case1 => cases found
  | case2 cursor _ _ middle step _ ih => exact ih found
  | case3 cursor _ _ middle step kept =>
      cases found
      refine ⟨by simpa using kept, ?_⟩
      unfold step? at step
      split at step
      · cases step
      · split at step
        · split at step
          · cases step
            exact table.category_mem _
          · cases step
            decide
        · cases step
          exact table.category_mem _

/-! ### The end of the text -/

@[simp] theorem lines_finish (cursor : Cursor) : cursor.finish.lines = [] := by
  unfold finish
  split
  · next empty => exact empty
  · rfl

theorem nextChar?_of_lines_eq_nil (ended : cursor.lines = []) : cursor.nextChar? table = none :=
  nextChar?_of_nil ⟨by simp [ended], by simp [ended]⟩

/-- At the start of a text, all its characters are left. -/
theorem unread_ofText (text : List Char) : (ofText text).unread = (unifyLineEnds text).length := by
  have whole : (splitLines (unifyLineEnds text)).flatten = unifyLineEnds text :=
    (splitLines_spec _).1
  rw [ofText, unread_mk, whole]

end Cursor

/-! ## Readers -/

namespace Reader

variable {table : CategoryTable} {tables : List CategoryTable} {reader after : Reader}
  {character : Char} {category : Category} {cursor : Cursor} {token : Token}

@[simp] theorem cursor_emit (reader : Reader) (cursor : Cursor) (state : LineState)
    (token : Token) : (reader.emit cursor state token).2.cursor = cursor := rfl

@[simp] theorem cursor_pass (reader : Reader) (cursor : Cursor) (state : LineState) :
    (reader.pass cursor state).2.cursor = cursor := rfl

theorem place_le_escape (table : CategoryTable) (reader : Reader) (cursor : Cursor) :
    cursor.place ≤ (reader.escape table cursor).2.cursor.place := by
  unfold escape
  split
  · exact cursor.place_le_finish
  · next found => exact (Cursor.place_lt_nextChar? found).le
  · next found =>
      exact (Cursor.place_lt_nextChar? found).le.trans (Cursor.place_le_letters table _)
  · next found => exact (Cursor.place_lt_nextChar? found).le

theorem cursor_lineEnd (reader : Reader) (cursor : Cursor) :
    (reader.lineEnd cursor).2.cursor = cursor := by
  unfold lineEnd
  split <;> try rfl
  split <;> rfl

/-- The effect of a character never goes back behind it. -/
theorem place_le_react (table : CategoryTable) (reader : Reader) (character : Char)
    (category : Category) (cursor : Cursor) :
    cursor.place ≤ (reader.react table character category cursor).2.cursor.place := by
  unfold react
  split
  · split <;> exact le_refl _
  · rw [cursor_lineEnd]
    exact cursor.place_le_skipRestOfLine
  · exact place_le_escape table reader cursor
  · exact cursor.place_le_skipRestOfLine
  · exact le_refl _
  · exact le_refl _

theorem file_react (table : CategoryTable) (reader : Reader) (character : Char)
    (category : Category) (cursor : Cursor) :
    (reader.react table character category cursor).2.file = reader.file := by
  have escaped : (reader.escape table cursor).2.file = reader.file := by
    unfold escape
    split <;> rfl
  have ended : ∀ place, (reader.lineEnd place).2.file = reader.file := by
    intro place
    unfold lineEnd
    split <;> try rfl
    split <;> rfl
  unfold react
  split <;> first | rfl | exact ended _ | exact escaped | (split <;> rfl)

/-- A character that is neither dropped nor foreign to tables becomes a token of the right
shape, if it becomes one at all. -/
theorem isCut_of_react (kept : Cursor.isDropped category = false)
    (known : category ∈ Category.ofCharacters)
    (reaction : reader.react table character category cursor = (some token, after)) :
    token.IsCut := by
  have escaped : ∀ {result}, reader.escape table cursor = (some result, after) →
      result.IsCut := by
    intro result found
    unfold escape at found
    split at found <;> cases found <;> exact .inl rfl
  have ended : ∀ {place result}, reader.lineEnd place = (some result, after) → result.IsCut := by
    intro place result found
    unfold lineEnd at found
    split at found
    · cases found
    · cases found
      exact .inr ⟨' ', rfl, by decide⟩
    · split at found <;> cases found
      exact .inl rfl
  unfold react at reaction
  split at reaction
  · split at reaction <;> cases reaction
    exact .inr ⟨' ', rfl, by decide⟩
  · exact ended reaction
  · exact escaped reaction
  · cases reaction
  · cases reaction
    exact .inl rfl
  · next notSpace notEnd notEscape notComment notActive =>
      cases reaction
      have other : category ∉ [.escape, .endOfLine, .comment, .active] := by
        simpa using ⟨notEscape, notEnd, notComment, notActive⟩
      exact .inr ⟨character, rfl, Category.mem_ofTokens known kept other⟩

/-- A token is taken from a place at or behind the reader, and the reader goes on strictly
behind that place, in the same file. -/
theorem next_some (found : reader.next table = (some token, after)) :
    (∃ start : Cursor, token.position = some (reader.positionOf start) ∧
      reader.cursor.place ≤ start.place ∧ start.place < after.cursor.place) ∧
    after.file = reader.file := by
  fun_induction next table reader with
  | case1 => cases found
  | case2 reader character category cursor read token' reader' reaction =>
      have forward := place_le_react table reader character category cursor
      have sameFile := file_react table reader character category cursor
      rw [reaction] at forward sameFile
      cases found
      exact ⟨⟨reader.cursor.settle, rfl, Cursor.place_le_settle _,
        (Cursor.place_settle_lt_nextChar? read).trans_le forward⟩, sameFile⟩
  | case3 reader character category cursor read reader' reaction ih =>
      -- No token yet: the search goes on from a later place of the same file.
      have forward := place_le_react table reader character category cursor
      have sameFile := file_react table reader character category cursor
      rw [reaction] at forward sameFile
      obtain ⟨⟨start, isPosition, behind, before⟩, laterFile⟩ := ih found
      refine ⟨⟨start, ?_, ?_, before⟩, laterFile.trans sameFile⟩
      · rw [isPosition, positionOf, positionOf, show reader'.file = reader.file from sameFile]
      · exact (Cursor.place_lt_nextChar? read).le.trans (forward.trans behind)

/-- Without a token the end of the text has been reached. -/
theorem next_none (found : reader.next table = (none, after)) : after.cursor.lines = [] := by
  fun_induction next table reader with
  | case1 =>
      cases found
      exact Cursor.lines_finish _
  | case2 => cases found
  | case3 _ _ _ _ _ _ _ ih => exact ih found

/-- At the end of the text there is no token. -/
theorem next_of_ended (ended : reader.cursor.lines = []) :
    ∃ after : Reader, reader.next table = (none, after) ∧ after.cursor.lines = [] := by
  have found : reader.cursor.nextChar? table = none := Cursor.nextChar?_of_lines_eq_nil ended
  exact ⟨_, next_of_nextChar?_none found, Cursor.lines_finish _⟩

/-- Every token has the right shape. -/
theorem isCut_of_next (found : reader.next table = (some token, after)) : token.IsCut := by
  fun_induction next table reader with
  | case1 => cases found
  | case2 reader character category cursor read token' reader' reaction =>
      obtain ⟨kept, known⟩ := Cursor.category_of_nextChar? read
      have shape : token'.IsCut := isCut_of_react kept known reaction
      cases found
      exact shape
  | case3 _ _ _ _ _ _ _ ih => exact ih found

/-! ## Sequences of calls -/

/-- One call for the next token. -/
structure Call where
  before : Reader
  token : Option Token
  after : Reader

/-- The calls with the given tables, one after the other. -/
def calls : List CategoryTable → Reader → List Call
  | [], _ => []
  | table :: tables, reader =>
      let (token, after) := reader.next table
      ⟨reader, token, after⟩ :: calls tables after

/-- The tokens that the calls gave. -/
def tokensOf (calls : List Call) : List Token := calls.filterMap Call.token

theorem length_calls (tables : List CategoryTable) (reader : Reader) :
    (calls tables reader).length = tables.length := by
  induction tables generalizing reader with
  | nil => rfl
  | cons table tables ih => exact congrArg (· + 1) (ih _)

theorem calls_cons (found : reader.next table = (result, after)) :
    calls (table :: tables) reader = ⟨reader, result, after⟩ :: calls tables after := by
  rw [calls, found]

/-- A call with a token goes forward, a call without one has reached the end. -/
theorem of_mem_calls {call : Call} (member : call ∈ calls tables reader) :
    (∀ token, call.token = some token →
      call.before.cursor.place < call.after.cursor.place ∧ token.IsCut) ∧
    (call.token = none → call.after.atEnd) := by
  induction tables generalizing reader with
  | nil => cases member
  | cons table tables ih =>
      obtain ⟨result, after, found⟩ : ∃ result after, reader.next table = (result, after) :=
        ⟨_, _, rfl⟩
      rw [calls_cons found] at member
      rcases List.mem_cons.mp member with rfl | later
      · refine ⟨?_, ?_⟩
        · rintro token rfl
          obtain ⟨⟨start, -, behind, before⟩, -⟩ := next_some found
          exact ⟨behind.trans_lt before, isCut_of_next found⟩
        · rintro rfl
          simp [atEnd, Cursor.atEnd, next_none found]
      · exact ih later

/-- Behind the end of the text no call gives a token. -/
theorem token_of_ended (ended : reader.cursor.lines = []) {call : Call}
    (member : call ∈ calls tables reader) : call.token = none := by
  induction tables generalizing reader with
  | nil => cases member
  | cons table tables ih =>
      obtain ⟨after, found, stillEnded⟩ :
          ∃ after : Reader, reader.next table = (none, after) ∧ after.cursor.lines = [] :=
        next_of_ended ended
      rw [calls_cons found] at member
      rcases List.mem_cons.mp member with rfl | later
      · rfl
      · exact ih stillEnded later

theorem tokensOf_of_ended (ended : reader.cursor.lines = []) (tables : List CategoryTable) :
    tokensOf (calls tables reader) = [] :=
  List.filterMap_eq_nil_iff.mpr fun _ member => token_of_ended ended member

/-- All tokens are taken from places at or behind the reader. -/
theorem position_of_mem_calls (member : token ∈ tokensOf (calls tables reader)) :
    ∃ start : Cursor, token.position = some (reader.positionOf start) ∧
      reader.cursor.place ≤ start.place := by
  induction tables generalizing reader with
  | nil => cases member
  | cons table tables ih =>
      obtain ⟨result, after, found⟩ : ∃ result after, reader.next table = (result, after) :=
        ⟨_, _, rfl⟩
      rw [calls_cons found] at member
      cases result with
      | none =>
          have noToken := tokensOf_of_ended (next_none found) tables
          simp only [tokensOf, List.filterMap_cons] at member noToken
          rw [noToken] at member
          cases member
      | some first =>
          obtain ⟨⟨start, isPosition, behind, before⟩, sameFile⟩ := next_some found
          rcases List.mem_cons.mp member with rfl | later
          · exact ⟨start, isPosition, behind⟩
          · obtain ⟨start', isLater, behind'⟩ := ih later
            refine ⟨start', ?_, (behind.trans_lt before).le.trans behind'⟩
            rw [isLater, positionOf, positionOf, sameFile]

theorem before_of_place_lt {first second : Token} {reader other : Reader} {start later : Cursor}
    (position : first.position = some (reader.positionOf start))
    (position' : second.position = some (other.positionOf later))
    (forward : start.place < later.place) : first.Before second := by
  refine ⟨_, position, _, position', ?_⟩
  rw [Cursor.place_lt_iff] at forward
  simpa [Prod.Lex.toLex_lt_toLex, positionOf] using forward

/-- The positions of the tokens increase. -/
theorem pairwise_before (tables : List CategoryTable) (reader : Reader) :
    (tokensOf (calls tables reader)).Pairwise Token.Before := by
  induction tables generalizing reader with
  | nil => exact .nil
  | cons table tables ih =>
      obtain ⟨result, after, found⟩ : ∃ result after, reader.next table = (result, after) :=
        ⟨_, _, rfl⟩
      rw [calls_cons found]
      cases result with
      | none => exact ih after
      | some first =>
          obtain ⟨⟨start, isPosition, -, before⟩, -⟩ := next_some found
          refine List.pairwise_cons.mpr ⟨?_, ih after⟩
          intro second later
          obtain ⟨start', isLater, behind⟩ := position_of_mem_calls later
          exact before_of_place_lt isPosition isLater (before.trans_le behind)

/-- Every token takes at least one character. -/
theorem length_tokensOf_le (tables : List CategoryTable) (reader : Reader) :
    (tokensOf (calls tables reader)).length ≤ reader.unread := by
  induction tables generalizing reader with
  | nil => exact Nat.zero_le _
  | cons table tables ih =>
      obtain ⟨result, after, found⟩ : ∃ result after, reader.next table = (result, after) :=
        ⟨_, _, rfl⟩
      rw [calls_cons found]
      cases result with
      | none =>
          have noToken := tokensOf_of_ended (next_none found) tables
          simp only [tokensOf, List.filterMap_cons] at noToken ⊢
          simp [noToken]
      | some first => exact Nat.lt_of_le_of_lt (ih after) (unread_next found)

/-- A call without a token is followed by such calls only. -/
theorem pairwise_none (tables : List CategoryTable) (reader : Reader) :
    (calls tables reader).Pairwise fun first second =>
      first.token = none → second.token = none := by
  induction tables generalizing reader with
  | nil => exact .nil
  | cons table tables ih =>
      obtain ⟨result, after, found⟩ : ∃ result after, reader.next table = (result, after) :=
        ⟨_, _, rfl⟩
      rw [calls_cons found]
      refine List.pairwise_cons.mpr ⟨?_, ih after⟩
      rintro call later rfl
      exact token_of_ended (next_none found) later

/-- Every call comes to an end.  If it gives a token, the reader has gone forward, and the
token is a control sequence or one character of a category that becomes a token; otherwise
the end of the text has been reached, and no later call gives a token.  The positions of
the tokens increase, and there are no more tokens than characters of the text. -/
theorem calls_progress (text file : String) (tables : List CategoryTable) :
    (calls tables (ofText text file)).length = tables.length ∧
    (∀ call ∈ calls tables (ofText text file),
      (∀ token, call.token = some token →
        call.before.cursor.place < call.after.cursor.place ∧ token.IsCut) ∧
      (call.token = none → call.after.atEnd)) ∧
    (tokensOf (calls tables (ofText text file))).Pairwise Token.Before ∧
    (tokensOf (calls tables (ofText text file))).length ≤
      (Cursor.unifyLineEnds text.toList).length ∧
    (calls tables (ofText text file)).Pairwise fun first second =>
      first.token = none → second.token = none := by
  refine ⟨length_calls _ _, fun _ member => of_mem_calls member, pairwise_before _ _, ?_,
    pairwise_none _ _⟩
  calc (tokensOf (calls tables (ofText text file))).length
    _ ≤ (Cursor.ofText text.toList).unread := length_tokensOf_le _ _
    _ = (Cursor.unifyLineEnds text.toList).length := Cursor.unread_ofText _

/-- Tables under which a line feed ends a line, is a letter, a superscript character and the
end of a line again. -/
def changingTables : List CategoryTable :=
  [.initial, CategoryTable.initial.assign '\n' .letter,
    CategoryTable.initial.assign '\n' .superscript, .verbatim]

theorem calls_progress_changing :
    (calls changingTables (ofText "\\a\n\n\n b" "<string>")).length = changingTables.length ∧
    (∀ call ∈ calls changingTables (ofText "\\a\n\n\n b" "<string>"),
      (∀ token, call.token = some token →
        call.before.cursor.place < call.after.cursor.place ∧ token.IsCut) ∧
      (call.token = none → call.after.atEnd)) ∧
    (tokensOf (calls changingTables (ofText "\\a\n\n\n b" "<string>"))).Pairwise Token.Before ∧
    (tokensOf (calls changingTables (ofText "\\a\n\n\n b" "<string>"))).length ≤
      (Cursor.unifyLineEnds "\\a\n\n\n b".toList).length ∧
    (calls changingTables (ofText "\\a\n\n\n b" "<string>")).Pairwise fun first second =>
      first.token = none → second.token = none :=
  calls_progress "\\a\n\n\n b" "<string>" changingTables

end Reader

end TexTree
