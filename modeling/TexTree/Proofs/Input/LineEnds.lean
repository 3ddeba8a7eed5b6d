import TexTree.Proofs.Input.Progress

/-!
# Lines that are closed

A text whose lines are all closed by line ends is read in the same manner whether it ends
there or goes on: no character, and no name, reaches over the last line end.  This module
says so for each of the steps in which a cursor takes characters.
-/

namespace TexTree

namespace Cursor

variable {table : CategoryTable} {cursor rest : Cursor} {character : Char} {category : Category}

/-- The last of the characters that are left, if there is one, is a line feed. -/
def Ended (cursor : Cursor) : Prop :=
  ∀ last, cursor.lines.flatten.getLast? = some last → last = '\n'

/-- The cursor in a text that goes on with more lines. -/
def onto (cursor : Cursor) (more : List (List Char)) : Cursor :=
  { cursor with lines := cursor.lines ++ more }

/-- The number of lines that have been passed and of those that are left. -/
def total (cursor : Cursor) : Nat := cursor.line + cursor.lines.length

/-- What one or more characters were taken from, and what they left. -/
structure Passes (cursor rest : Cursor) : Prop where
  inside : rest.lines ≠ []
  total : rest.total = cursor.total
  suffix : rest.lines.flatten <:+ cursor.lines.flatten

theorem Passes.trans {middle : Cursor} (first : Passes cursor middle)
    (second : Passes middle rest) : Passes cursor rest :=
  ⟨second.inside, second.total.trans first.total, second.suffix.trans first.suffix⟩

theorem Passes.ended (passes : Passes cursor rest) (ended : cursor.Ended) : rest.Ended := by
  intro last isLast
  obtain ⟨read, equal⟩ := passes.suffix
  refine ended last ?_
  rw [← equal, List.getLast?_append, isLast, Option.some_or]

/-! ## Single characters -/

theorem settleLines_onto {lines : List (List Char)} (more : List (List Char)) (line column : Nat)
    (some : lines.flatten ≠ []) :
    settleLines (lines ++ more) line column = (settleLines lines line column).onto more := by
  fun_induction settleLines lines line column with
  | case1 rest line column ih =>
      rw [List.cons_append, settleLines]
      exact ih (by simpa using some)
  | case2 lines line column notEmpty =>
      rcases lines with _ | ⟨_ | ⟨first, line'⟩, lines⟩
      · exact absurd rfl some
      · exact absurd rfl (notEmpty lines)
      · rfl

theorem total_settleLines (lines : List (List Char)) (line column : Nat) :
    (settleLines lines line column).total = line + lines.length := by
  fun_induction settleLines lines line column with
  | case1 rest line column ih =>
      rw [ih, List.length_cons]
      omega
  | case2 lines line column _ => rfl

theorem next?_passes (found : cursor.next? = some (character, rest)) :
    Passes cursor rest ∧ cursor.lines.flatten = character :: rest.lines.flatten ∧
      ∀ more, (cursor.onto more).settle = cursor.settle.onto more ∧
        (cursor.onto more).next? = some (character, rest.onto more) := by
  have flat := settleLines_flatten cursor.lines cursor.line cursor.column
  have sameTotal := total_settleLines cursor.lines cursor.line cursor.column
  simp only [next?] at found
  split at found
  · next head line lines equal =>
      cases found
      have settled : (settleLines cursor.lines cursor.line cursor.column).lines =
        (character :: line) :: lines := equal
      have some : cursor.lines.flatten ≠ [] := by
        rw [← flat, settled]
        simp
      rw [settled] at flat
      refine ⟨⟨by simp, ?_, ?_⟩, by rw [← flat]; rfl, fun more => ?_⟩
      · rw [total, total, ← sameTotal, total, settled]
        rfl
      · rw [← flat]
        exact List.suffix_cons _ _
      · have ontoSettled : (cursor.onto more).settle = cursor.settle.onto more :=
          settleLines_onto more cursor.line cursor.column some
        refine ⟨ontoSettled, ?_⟩
        rw [next?, ontoSettled]
        simp [onto, equal]
  · cases found

theorem next?_eq_none (found : cursor.next? = none) : cursor.lines.flatten = [] := by
  have flat := settleLines_flatten cursor.lines cursor.line cursor.column
  simp only [next?] at found
  split at found
  · cases found
  · next notCons =>
      rcases settleLines_head cursor.lines cursor.line cursor.column with empty | ⟨_, _, _, equal⟩
      · rw [← flat, empty]
        rfl
      · exact absurd equal (notCons _ _ _)

/-- A character code lies on one line, in front of its end. -/
theorem coded?_spec {mark : Char} (found : cursor.coded? mark = some (character, rest)) :
    ∃ read last line lines, cursor.lines = (read ++ last :: line) :: lines ∧ last ≠ '\n' ∧
      rest.lines = line :: lines ∧ rest.line = cursor.line := by
  have noDigit : hexValue? '\n' = none := by decide
  unfold coded? at found
  split at found
  · next again first line lines equal =>
      split at found
      · next marked =>
          have single : ∀ decoded column,
              (if first.toNat < 128 then
                some (decoded, Cursor.mk (line :: lines) cursor.line column)
                else none) = some (character, rest) →
              ∃ read last line lines, cursor.lines = (read ++ last :: line) :: lines ∧
                last ≠ '\n' ∧ rest.lines = line :: lines ∧ rest.line = cursor.line := by
            intro decoded column isSingle
            split at isSingle
            · cases isSingle
              exact ⟨[again], first, line, lines, equal, marked.2, rfl, rfl⟩
            · cases isSingle
          dsimp only at found
          split at found
          · next second line =>
              split at found
              · next code isPair =>
                  have digit : second ≠ '\n' := by
                    rintro rfl
                    simp [hexPair?, noDigit] at isPair
                  cases found
                  exact ⟨[again, first], second, line, lines, equal, digit, rfl, rfl⟩
              · exact single _ _ found
          · exact single _ _ found
      · cases found
  · cases found

theorem coded?_onto {mark : Char} (inside : cursor.lines ≠ []) (more : List (List Char)) :
    (cursor.onto more).coded? mark =
      (cursor.coded? mark).map fun found => (found.1, found.2.onto more) := by
  obtain ⟨lines, line, column⟩ := cursor
  match lines with
  | [] => exact absurd rfl inside
  | [] :: _ | [_] :: _ => rfl
  | (again :: first :: []) :: lines =>
      simp only [coded?, onto, List.cons_append]
      split <;> [split; skip] <;> rfl
  | (again :: first :: second :: rest) :: lines =>
      simp only [coded?, onto, List.cons_append]
      split
      · split
        · rfl
        · split <;> rfl
      · rfl

/-! ## Characters with their categories -/

/-- A character of the given category was taken.  Unless it ends its line, there is something
left behind it. -/
structure Takes (cursor : Cursor) (category : Category) (rest : Cursor) : Prop extends
    Passes cursor rest where
  goesOn : cursor.Ended → category ≠ .endOfLine → rest.lines.flatten ≠ []

theorem Ended.ne_nil {last : Char} (ended : cursor.Ended) (read : List Char)
    (equal : cursor.lines.flatten = read ++ last :: rest.lines.flatten) (other : last ≠ '\n') :
    rest.lines.flatten ≠ [] := by
  intro nothing
  rw [nothing] at equal
  exact other (ended last (by simp [equal]))

theorem step?_takes (isLineEnd : table.category '\n' = .endOfLine)
    (found : cursor.step? table = some (character, category, rest)) :
    Takes cursor category rest ∧
      ∀ more, (cursor.onto more).step? table = some (character, category, rest.onto more) := by
  unfold step? at found
  split at found
  · cases found
  · next first middle read =>
      obtain ⟨passes, flat, ontoNext⟩ := next?_passes read
      have notEnd : table.category first ≠ .endOfLine → first ≠ '\n' :=
        fun other equal => other (equal ▸ isLineEnd)
      have notMark : table.category first = .superscript → first ≠ '\n' :=
        fun isMark => notEnd (by simp [isMark])
      split at found
      · next isMark =>
          split at found
          · next decoded behind coded =>
              cases found
              obtain ⟨taken, last, line, lines, before, other, after, sameLine⟩ := coded?_spec coded
              have coding : Passes middle rest := by
                refine ⟨by simp [after], ?_, ?_⟩
                · simp [total, sameLine, before, after]
                · rw [before, after]
                  exact ⟨taken ++ [last], by simp⟩
              refine ⟨⟨passes.trans coding, fun ended _ => ?_⟩, fun more => ?_⟩
              · exact (passes.ended ended).ne_nil taken (by simp [before, after]) other
              · simp [step?, (ontoNext more).2, isMark, coded?_onto passes.inside more, coded]
          · next coded =>
              cases found
              refine ⟨⟨passes, fun ended _ => ?_⟩, fun more => ?_⟩
              · exact ended.ne_nil [] flat (notMark isMark)
              · simp [step?, (ontoNext more).2, isMark, coded?_onto passes.inside more, coded]
      · next notSuperscript =>
          cases found
          refine ⟨⟨passes, fun ended other => ?_⟩, fun more => ?_⟩
          · exact ended.ne_nil [] flat (notEnd other)
          · simp only [step?, (ontoNext more).2]

theorem nextChar?_eq (table : CategoryTable) (cursor : Cursor) :
    cursor.nextChar? table =
      match cursor.step? table with
      | none => none
      | some (character, category, rest) =>
          if isDropped category then rest.nextChar? table
          else some (character, category, rest) := by
  rw [nextChar?]
  split <;> simp_all

theorem nextChar?_takes (isLineEnd : table.category '\n' = .endOfLine)
    (found : cursor.nextChar? table = some (character, category, rest)) :
    Takes cursor category rest ∧
      ∀ more, (cursor.onto more).nextChar? table = some (character, category, rest.onto more) := by
  fun_induction nextChar? table cursor with
  | case1 => cases found
  | case2 cursor _ _ middle step isDropped ih =>
      obtain ⟨first, stepOnto⟩ := step?_takes isLineEnd step
      obtain ⟨second, nextOnto⟩ := ih found
      refine ⟨⟨first.trans second.toPasses, fun ended => second.goesOn (first.ended ended)⟩,
        fun more => ?_⟩
      rw [nextChar?_eq, stepOnto]
      exact (if_pos isDropped).trans (nextOnto more)
  | case3 cursor _ _ middle step kept =>
      cases found
      obtain ⟨takes, stepOnto⟩ := step?_takes isLineEnd step
      refine ⟨takes, fun more => ?_⟩
      rw [nextChar?_eq, stepOnto]
      exact if_neg kept

/-- As long as something is left of a text that ends with a line end, there is a next
character. -/
theorem nextChar?_ne_none (isLineEnd : table.category '\n' = .endOfLine) (ended : cursor.Ended)
    (some : cursor.lines.flatten ≠ []) : cursor.nextChar? table ≠ none := by
  fun_induction nextChar? table cursor with
  | case1 cursor none =>
      exfalso
      unfold step? at none
      split at none
      · next nothing => exact some (next?_eq_none nothing)
      · split at none
        · split at none <;> cases none
        · cases none
  | case2 cursor _ droppedCategory middle step isDropped ih =>
      obtain ⟨takes, _⟩ := step?_takes isLineEnd step
      have notEnd : droppedCategory ≠ .endOfLine := by
        rintro rfl
        cases isDropped
      exact ih (takes.ended ended) (takes.goesOn ended notEnd)
  | case3 => simp

/-- A name does not reach over the last line end. -/
theorem letters_takes (isLineEnd : table.category '\n' = .endOfLine) (ended : cursor.Ended)
    (some : cursor.lines.flatten ≠ []) :
    (cursor.letters table).2.lines.flatten ≠ [] ∧
      (cursor.letters table).2.total = cursor.total ∧
      (cursor.letters table).2.lines.flatten <:+ cursor.lines.flatten ∧
      ∀ more, (cursor.onto more).letters table =
        ((cursor.letters table).1, (cursor.letters table).2.onto more) := by
  fun_induction letters table cursor with
  | case1 cursor letter rest found more final equal ih =>
      obtain ⟨takes, nextOnto⟩ := nextChar?_takes isLineEnd found
      obtain ⟨goesOn, sameTotal, suffix, lettersOnto⟩ :=
        ih (takes.ended ended) (takes.goesOn ended (by simp))
      rw [equal] at goesOn sameTotal suffix lettersOnto
      refine ⟨goesOn, sameTotal.trans takes.total, suffix.trans takes.suffix, fun more => ?_⟩
      rw [letters]
      split
      · next equal' =>
          rw [nextOnto] at equal'
          cases equal'
          rw [lettersOnto]
      · next other => exact absurd (nextOnto more) (other _ _)
  | case2 cursor noLetter =>
      refine ⟨some, rfl, List.suffix_refl _, fun more => ?_⟩
      obtain ⟨⟨character, category, rest⟩, found⟩ :=
        Option.ne_none_iff_exists'.mp (nextChar?_ne_none isLineEnd ended some)
      have nextOnto := (nextChar?_takes isLineEnd found).2 more
      rw [letters]
      split
      · next equal =>
          rw [nextOnto] at equal
          cases equal
          exact absurd found (noLetter _ _)
      · rfl

theorem settle_settle (cursor : Cursor) : cursor.settle.settle = cursor.settle := by
  rw [settle, settle]
  fun_induction settleLines cursor.lines cursor.line cursor.column with
  | case1 rest line column ih => exact ih
  | case2 lines line column notEmpty =>
      rcases lines with _ | ⟨_ | ⟨first, rest⟩, lines⟩
      · rfl
      · exact absurd rfl (notEmpty lines)
      · rfl

theorem finish_settle (cursor : Cursor) : cursor.settle.finish = cursor.finish := by
  obtain ⟨lines, line, column⟩ := cursor
  change (settleLines lines line column).finish = _
  fun_induction settleLines lines line column with
  | case1 rest line column ih =>
      rw [ih]
      cases rest with
      | nil => rfl
      | cons first rest => simp [finish, Nat.add_assoc, Nat.add_comm 1]
  | case2 => rfl

/-- The end of a text is behind its last line. -/
theorem finish_of_column (cursor : Cursor) (column : cursor.lines = [] → cursor.column = 0) :
    cursor.finish.line = cursor.total ∧ cursor.finish.column = 0 := by
  obtain ⟨lines, line, start⟩ := cursor
  cases lines with
  | nil => exact ⟨rfl, column rfl⟩
  | cons first lines => exact ⟨rfl, rfl⟩

/-- Behind lines of which nothing is left, a cursor settles where more lines begin. -/
theorem settle_onto_of_flatten (cursor : Cursor) (nothing : cursor.lines.flatten = [])
    (more : List (List Char)) : (cursor.onto more).settle = (cursor.finish.onto more).settle := by
  obtain ⟨lines, line, column⟩ := cursor
  change settleLines (lines ++ more) line column = _
  induction lines generalizing line column with
  | nil => rfl
  | cons first lines ih =>
      obtain ⟨rfl, later⟩ : first = [] ∧ lines.flatten = [] := by simpa using nothing
      rw [List.cons_append, settleLines, ih _ _ later]
      cases lines with
      | nil => rfl
      | cons second lines => simp [finish, onto, settle, Nat.add_assoc, Nat.add_comm 1]

theorem nextChar?_settle (table : CategoryTable) (cursor : Cursor) :
    cursor.settle.nextChar? table = cursor.nextChar? table := by
  have same : cursor.settle.step? table = cursor.step? table := by
    simp only [step?, next?, settle_settle]
  rw [nextChar?_eq, nextChar?_eq, same]

/-- Passing the rest of a line. -/
theorem skipRestOfLine_passes (inside : cursor.lines ≠ []) :
    Passes cursor cursor.skipRestOfLine ∧
      ∀ more, (cursor.onto more).skipRestOfLine = cursor.skipRestOfLine.onto more := by
  obtain ⟨lines, line, column⟩ := cursor
  cases lines with
  | nil => exact absurd rfl inside
  | cons first lines =>
      exact ⟨⟨by simp [skipRestOfLine], rfl, List.suffix_append _ _⟩, fun _ => rfl⟩

end Cursor

end TexTree
