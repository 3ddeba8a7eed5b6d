import TexTree.Proofs.Input.LineEnds

/-!
# Texts that are read up to the end of a line

The tokens of a text whose lines are all closed are those of its first lines, and then those
of the lines behind, read in the state in which the first lines have left the reader
(`Reader.tokens_onto`).

That state is the one at the start of a line, with one exception.  An escape character in
front of a line end takes it up, and leaves the reader in the state behind a blank.
-/

namespace TexTree

namespace Reader

variable {table : CategoryTable} {reader after : Reader} {character : Char} {category : Category}
  {cursor : Cursor} {token : Token} {result last : Option Token}

/-- The reader in a text that goes on with more lines. -/
def onto (reader : Reader) (more : List (List Char)) : Reader :=
  { reader with cursor := reader.cursor.onto more }

/-- The reader stands at the start of a line, or the last token was the control sequence
without a name. -/
def Rests (reader : Reader) (last : Option Token) : Prop :=
  reader.state = .newLine ∨
    reader.state = .skipBlanks ∧ ∃ token, last = some token ∧ token.text = ""

theorem escape_onto (isLineEnd : table.category '\n' = .endOfLine) (ended : cursor.Ended)
    (some : cursor.lines.flatten ≠ [])
    (reaction : reader.escape table cursor = (result, after)) :
    Cursor.Passes cursor after.cursor ∧ (after.cursor.lines.flatten = [] → after.Rests result) ∧
      ∀ more, (reader.onto more).escape table (cursor.onto more) = (result, after.onto more) := by
  obtain ⟨⟨character, category, rest⟩, found⟩ :=
    Option.ne_none_iff_exists'.mp (Cursor.nextChar?_ne_none isLineEnd ended some)
  obtain ⟨takes, nextOnto⟩ := Cursor.nextChar?_takes isLineEnd found
  have goesOn := takes.goesOn ended
  cases category with
  | endOfLine =>
      simp only [escape, found] at reaction
      cases reaction
      refine ⟨takes.toPasses, fun _ => .inr ⟨rfl, _, rfl, rfl⟩, fun more => ?_⟩
      simp only [escape, nextOnto]
      rfl
  | letter =>
      obtain ⟨named, sameTotal, suffix, lettersOnto⟩ :=
        Cursor.letters_takes isLineEnd (takes.ended ended) (goesOn (by simp))
      simp only [escape, found] at reaction
      cases reaction
      refine ⟨⟨?_, sameTotal.trans takes.total, suffix.trans takes.suffix⟩,
        fun nothing => absurd nothing named, fun more => ?_⟩
      · intro nothing
        have empty : (rest.letters table).2.lines = [] := nothing
        exact named (by simp [empty])
      · simp only [escape, nextOnto, lettersOnto]
        rfl
  | _ =>
      simp only [escape, found] at reaction
      cases reaction
      refine ⟨takes.toPasses, fun nothing => absurd nothing (goesOn (by simp)), fun more => ?_⟩
      simp only [escape, nextOnto]
      rfl

theorem lineEnd_rests (reader : Reader) (cursor : Cursor) :
    (reader.lineEnd cursor).2.state = .newLine ∧
      ∀ more, (reader.onto more).lineEnd (cursor.onto more) =
        ((reader.lineEnd cursor).1, (reader.lineEnd cursor).2.onto more) := by
  obtain ⟨file, place, state, afterBreak⟩ := reader
  cases state <;> cases afterBreak <;> exact ⟨rfl, fun _ => rfl⟩

/-- A reader goes on from where its cursor settles. -/
theorem next_settle (table : CategoryTable) (reader : Reader) :
    reader.next table = { reader with cursor := reader.cursor.settle }.next table := by
  have sameChar := Cursor.nextChar?_settle table reader.cursor
  cases found : reader.cursor.nextChar? table with
  | none =>
      have settled : ({ reader with cursor := reader.cursor.settle } : Reader).cursor.nextChar?
          table = none := sameChar.trans found
      rw [next_of_nextChar?_none found, next_of_nextChar?_none settled]
      simp only [Cursor.finish_settle]
  | some result =>
      obtain ⟨character, category, cursor⟩ := result
      have settled : ({ reader with cursor := reader.cursor.settle } : Reader).cursor.nextChar?
          table = some (character, category, cursor) := sameChar.trans found
      rw [next_of_nextChar? found, next_of_nextChar? settled]
      simp only [Cursor.settle_settle]
      rfl

theorem flatten_ne_nil
    (found : reader.cursor.nextChar? table = some (character, category, cursor)) :
    reader.cursor.lines.flatten ≠ [] := by
  intro nothing
  have shorter := Cursor.unread_nextChar? found
  rw [Cursor.unread, Cursor.unread, nothing] at shorter
  exact Nat.not_lt_zero _ shorter

/-- What a character does is the same if the text goes on, and when everything has been read
the reader rests. -/
theorem react_onto (isLineEnd : table.category '\n' = .endOfLine) (ended : reader.cursor.Ended)
    (found : reader.cursor.nextChar? table = some (character, category, cursor))
    (reaction : reader.react table character category cursor = (result, after)) :
    Cursor.Passes reader.cursor after.cursor ∧
      (after.cursor.lines.flatten = [] → after.Rests result) ∧
      ∀ more, (reader.onto more).react table character category (cursor.onto more) =
        (result, after.onto more) := by
  obtain ⟨takes, -⟩ := Cursor.nextChar?_takes isLineEnd found
  obtain ⟨skips, skipOnto⟩ := Cursor.skipRestOfLine_passes takes.inside
  have goesOn := takes.goesOn ended
  cases category with
  | space =>
      simp only [react] at reaction ⊢
      split at reaction
      all_goals
        next middle =>
          cases reaction
          refine ⟨takes.toPasses, fun nothing => absurd nothing (goesOn (by simp)), fun more => ?_⟩
          simp only [onto, middle]
          rfl
  | endOfLine =>
      obtain ⟨isNew, endOnto⟩ := lineEnd_rests reader cursor.skipRestOfLine
      have place := cursor_lineEnd reader cursor.skipRestOfLine
      simp only [react] at reaction ⊢
      rw [reaction] at isNew endOnto place
      refine ⟨place ▸ takes.toPasses.trans skips, fun _ => .inl isNew, fun more => ?_⟩
      rw [skipOnto, endOnto]
  | comment =>
      simp only [react] at reaction ⊢
      cases reaction
      refine ⟨takes.toPasses.trans skips, fun _ => .inl rfl, fun more => ?_⟩
      rw [skipOnto]
      rfl
  | escape =>
      simp only [react] at reaction ⊢
      obtain ⟨passes, rests, escapeOnto⟩ :=
        escape_onto isLineEnd (takes.ended ended) (goesOn (by simp)) reaction
      exact ⟨takes.toPasses.trans passes, rests, escapeOnto⟩
  | _ =>
      simp only [react] at reaction ⊢
      cases reaction
      exact ⟨takes.toPasses, fun nothing => absurd nothing (goesOn (by simp)), fun _ => rfl⟩

/-- What is known between two tokens: which token was the last one. -/
structure Follows (reader : Reader) (last : Option Token) : Prop where
  ended : reader.cursor.Ended
  afterBreak : reader.afterBreak = last.any (·.isNamed "par")
  rests : reader.cursor.lines.flatten = [] → reader.Rests last
  column : reader.cursor.lines = [] → reader.cursor.column = 0

/-- A token is the same if the text goes on. -/
theorem next_onto_some (isLineEnd : table.category '\n' = .endOfLine)
    (ended : reader.cursor.Ended) (found : reader.next table = (some token, after)) :
    after.Follows (some token) ∧ after.cursor.lines ≠ [] ∧
      after.cursor.total = reader.cursor.total ∧
      ∀ more, (reader.onto more).next table = (some token, after.onto more) := by
  fun_induction next table reader with
  | case1 => cases found
  | case2 reader character category cursor read token' reader' reaction =>
      obtain ⟨passes, rests, reactOnto⟩ := react_onto isLineEnd ended read reaction
      cases found
      refine ⟨⟨passes.ended ended, rfl, fun nothing => ?_, fun empty => ?_⟩, passes.inside,
        passes.total, fun more => ?_⟩
      · refine (rests nothing).imp_right ?_
        rintro ⟨behind, nameless, same, isEmpty⟩
        cases same
        exact ⟨behind, _, rfl, isEmpty⟩
      · exact absurd empty passes.inside
      · have settled : (reader.cursor.onto more).settle = reader.cursor.settle.onto more :=
          Cursor.settleLines_onto more _ _ (flatten_ne_nil read)
        have readOnto : (reader.onto more).cursor.nextChar? table = some _ :=
          (Cursor.nextChar?_takes isLineEnd read).2 more
        rw [next_of_nextChar? readOnto, reactOnto]
        simp only [onto, settled]
        rfl
  | case3 reader character category cursor read reader' reaction ih =>
      obtain ⟨passes, _, reactOnto⟩ := react_onto isLineEnd ended read reaction
      obtain ⟨follows, inside, sameTotal, nextOnto⟩ := ih (passes.ended ended) found
      refine ⟨follows, inside, sameTotal.trans passes.total, fun more => ?_⟩
      have readOnto : (reader.onto more).cursor.nextChar? table = some _ :=
        (Cursor.nextChar?_takes isLineEnd read).2 more
      rw [next_of_nextChar? readOnto, reactOnto]
      exact nextOnto more

theorem afterBreak_react (reaction : reader.react table character category cursor = (none, after)) :
    after.afterBreak = reader.afterBreak := by
  have ended : ∀ place, reader.lineEnd place = (none, after) →
      after.afterBreak = reader.afterBreak := by
    intro place found
    unfold lineEnd at found
    split at found <;> try split at found
    all_goals cases found <;> rfl
  have escaped : ∀ place, reader.escape table place ≠ (none, after) := by
    intro place found
    unfold escape at found
    split at found <;> cases found
  unfold react at reaction
  split at reaction
  · split at reaction <;> cases reaction
    rfl
  · exact ended _ reaction
  · exact absurd reaction (escaped _)
  · cases reaction
    rfl
  · cases reaction
  · cases reaction

/-- Where a reader finds no token any more, it stands at the end and rests; if the text goes on
there, so does the reader. -/
theorem next_onto_none (isLineEnd : table.category '\n' = .endOfLine)
    (follows : reader.Follows last) (found : reader.next table = (none, after)) :
    after.Follows last ∧ after.cursor.lines = [] ∧ after.cursor.line = reader.cursor.total ∧
      after.file = reader.file ∧
      ∀ more, (reader.onto more).next table = (after.onto more).next table := by
  fun_induction next table reader with
  | case1 reader none =>
      cases found
      have nothing : reader.cursor.lines.flatten = [] := by
        by_contra some
        exact Cursor.nextChar?_ne_none isLineEnd follows.ended some none
      obtain ⟨line, column⟩ := reader.cursor.finish_of_column follows.column
      refine ⟨⟨by simp [Cursor.Ended], follows.afterBreak, fun _ => follows.rests nothing,
        fun _ => column⟩, Cursor.lines_finish _, line, rfl, fun more => ?_⟩
      rw [next_settle, next_settle _ (onto _ more)]
      simp only [onto, reader.cursor.settle_onto_of_flatten nothing]
  | case2 => cases found
  | case3 reader character category cursor read reader' reaction ih =>
      obtain ⟨passes, rests, reactOnto⟩ := react_onto isLineEnd follows.ended read reaction
      have stillFollows : reader'.Follows last := by
        refine ⟨passes.ended follows.ended, ?_, fun nothing => ?_, fun empty => ?_⟩
        · rw [afterBreak_react reaction, follows.afterBreak]
        · refine .inl ((rests nothing).resolve_right ?_)
          rintro ⟨_, _, impossible, _⟩
          cases impossible
        · exact absurd empty passes.inside
      obtain ⟨later, empty, line, file, nextOnto⟩ := ih stillFollows found
      have sameFile := file_react table reader character category cursor
      rw [reaction] at sameFile
      refine ⟨later, empty, line.trans passes.total, file.trans sameFile, fun more => ?_⟩
      have readOnto : (reader.onto more).cursor.nextChar? table = some _ :=
        (Cursor.nextChar?_takes isLineEnd read).2 more
      rw [next_of_nextChar? readOnto, reactOnto]
      exact nextOnto more

/-! ## All tokens -/

theorem tokens_of_next (found : reader.next table = (some token, after)) :
    reader.tokens table = (token :: (after.tokens table).1, (after.tokens table).2) := by
  rw [tokens]
  split
  · next none =>
      rw [found] at none
      cases none
  · next equal =>
      rw [found] at equal
      cases equal
      rfl

theorem tokens_of_next_none (found : reader.next table = (none, after)) :
    reader.tokens table = ([], after) := by
  rw [tokens]
  split
  · next equal =>
      rw [found] at equal
      cases equal
      rfl
  · next equal =>
      rw [found] at equal
      cases equal

theorem tokens_congr {other : Reader} (same : reader.next table = other.next table) :
    reader.tokens table = other.tokens table := by
  cases found : other.next table with
  | mk result rest =>
      cases result with
      | none => rw [tokens_of_next_none found, tokens_of_next_none (same.trans found)]
      | some token => rw [tokens_of_next found, tokens_of_next (same.trans found)]

/-- The tokens stand at or behind the reader. -/
theorem position_of_mem_tokens (member : token ∈ (reader.tokens table).1) :
    ∃ position, token.position = some position ∧ position.file = reader.file ∧
      reader.cursor.line < position.line := by
  fun_induction tokens table reader with
  | case1 => cases member
  | case2 reader first rest found more final equal ih =>
      obtain ⟨⟨start, isPosition, behind, before⟩, sameFile⟩ := next_some found
      rw [equal] at ih
      rcases List.mem_cons.mp member with rfl | later
      · refine ⟨_, isPosition, rfl, ?_⟩
        rcases Cursor.place_le_iff.mp behind with less | same
        · exact Nat.lt_succ_of_lt less
        · exact Nat.lt_succ_of_le same.1.le
      · obtain ⟨position, isLater, inFile, below⟩ := ih later
        refine ⟨position, isLater, inFile.trans sameFile, lt_of_le_of_lt ?_ below⟩
        rcases Cursor.place_lt_iff.mp (behind.trans_lt before) with less | same
        · exact less.le
        · exact same.1.le

/-- The tokens of the first lines of a text come first, and those of the lines behind are read
from where the first lines have left the reader. -/
theorem tokens_onto (isLineEnd : table.category '\n' = .endOfLine) (follows : reader.Follows last)
    {tokens : List Token} (all : reader.tokens table = (tokens, after)) :
    after.Follows (tokens.getLast?.or last) ∧ after.cursor.lines = [] ∧
      after.cursor.line = reader.cursor.total ∧ after.file = reader.file ∧
      (∀ token ∈ tokens, ∀ position ∈ token.position, position.line ≤ reader.cursor.total) ∧
      ∀ more,
        ((reader.onto more).tokens table).1 = tokens ++ ((after.onto more).tokens table).1 := by
  fun_induction Reader.tokens table reader generalizing last tokens after with
  | case1 reader rest found =>
      cases all
      obtain ⟨later, empty, line, file, nextOnto⟩ := next_onto_none isLineEnd follows found
      refine ⟨later, empty, line, file, by simp, fun more => ?_⟩
      rw [tokens_congr (nextOnto more), List.nil_append]
  | case2 reader token rest found more final equal ih =>
      cases all
      obtain ⟨later, inside, sameTotal, nextOnto⟩ := next_onto_some isLineEnd follows.ended found
      obtain ⟨⟨start, isPosition, behind, before⟩, sameFile⟩ := next_some found
      obtain ⟨final, empty, line, file, above, tokensOnto⟩ := ih later equal
      refine ⟨?_, empty, line.trans sameTotal, file.trans sameFile, ?_, fun more => ?_⟩
      · cases more with
        | nil => exact final
        | cons second more =>
            rw [List.getLast?_cons_cons]
            cases isLast : (second :: more).getLast? with
            | none => simp at isLast
            | some => simpa [isLast] using final
      · intro token' member position isPosition'
        rcases List.mem_cons.mp member with rfl | older
        · rw [isPosition, Option.mem_some_iff] at isPosition'
          have below : 0 < rest.cursor.lines.length := List.length_pos_iff.mpr inside
          have above : start.line ≤ rest.cursor.line := by
            rcases Cursor.place_lt_iff.mp before with less | same
            · exact less.le
            · exact same.1.le
          rw [← isPosition', ← sameTotal]
          change start.line + 1 ≤ rest.cursor.line + _
          omega
        · rw [← sameTotal]
          exact above token' older position isPosition'
      · rw [tokens_of_next (nextOnto more), tokensOnto, List.cons_append]

end Reader

end TexTree
