import TexTree.Proofs.Input.Lines
import TexTree.Proofs.Input.Tables

/-!
# Tables that agree

A text is cut into tokens by the categories of its characters and by nothing else in the table:
tables that give every character the same category give every text the same tokens
(`Reader.tokens_of_category_eq`), whatever their sets look like.

So a table can be described by the last assignment to each character
(`CategoryTable.behaves_as_map`).
-/

namespace TexTree

variable {table other : CategoryTable} (agree : table.category = other.category)

include agree

namespace Cursor

theorem step?_of_category_eq (cursor : Cursor) : cursor.step? table = cursor.step? other := by
  unfold step?
  rw [agree]

theorem nextChar?_of_category_eq (cursor : Cursor) :
    cursor.nextChar? table = cursor.nextChar? other := by
  fun_induction nextChar? table cursor with
  | case1 cursor atEnd =>
      rw [step?_of_category_eq agree] at atEnd
      rw [nextChar?_eq other, atEnd]
  | case2 cursor character category rest step dropped ih =>
      rw [step?_of_category_eq agree] at step
      rw [nextChar?_eq other, step]
      exact ih.trans (if_pos dropped).symm
  | case3 cursor character category rest step kept =>
      rw [step?_of_category_eq agree] at step
      rw [nextChar?_eq other, step]
      exact (if_neg kept).symm

theorem letters_of_category_eq (cursor : Cursor) :
    cursor.letters table = cursor.letters other := by
  fun_induction letters table cursor with
  | case1 cursor character rest found more final isRest ih =>
      rw [nextChar?_of_category_eq agree] at found
      rw [letters]
      split
      · next equal =>
          rw [found] at equal
          cases equal
          rw [← ih, isRest]
      · next noLetter => exact absurd found (noLetter _ _)
  | case2 cursor noLetter =>
      rw [letters]
      split
      · next found =>
          rw [← nextChar?_of_category_eq agree] at found
          exact absurd found (noLetter _ _)
      · rfl

end Cursor

namespace Reader

theorem escape_of_category_eq (reader : Reader) (cursor : Cursor) :
    reader.escape table cursor = reader.escape other cursor := by
  unfold escape
  rw [Cursor.nextChar?_of_category_eq agree]
  simp only [Cursor.letters_of_category_eq agree]

theorem react_of_category_eq (reader : Reader) (character : Char) (category : Category)
    (cursor : Cursor) :
    reader.react table character category cursor =
      reader.react other character category cursor := by
  unfold react
  rw [escape_of_category_eq agree]

theorem next_of_category_eq (reader : Reader) : reader.next table = reader.next other := by
  fun_induction next table reader with
  | case1 reader atEnd =>
      rw [Cursor.nextChar?_of_category_eq agree] at atEnd
      rw [next_of_nextChar?_none atEnd]
  | case2 reader character category cursor found token after reaction =>
      rw [Cursor.nextChar?_of_category_eq agree] at found
      rw [react_of_category_eq agree] at reaction
      rw [next_of_nextChar? found, reaction]
  | case3 reader character category cursor found after reaction ih =>
      rw [Cursor.nextChar?_of_category_eq agree] at found
      rw [react_of_category_eq agree] at reaction
      rw [next_of_nextChar? found, reaction, ih]

/-- Only the categories of characters matter for the tokens of a text. -/
theorem tokens_of_category_eq (reader : Reader) : reader.tokens table = reader.tokens other := by
  fun_induction tokens table reader with
  | case1 reader final found =>
      rw [next_of_category_eq agree] at found
      rw [tokens_of_next_none found]
  | case2 reader token rest found more final isRest ih =>
      rw [next_of_category_eq agree] at found
      rw [tokens_of_next found, ← ih, isRest]

end Reader

omit agree

/-- A category table is a map.  However it was made, no character stands in two of its sixteen
sets or twice in one, and none in the set of ordinary ones.  An assignment changes the category of
one character only, and it does not matter in which order the sets are searched.  So no text is cut
into other tokens if a character is given the category that it has, or if assignments to different
characters are made in another order. -/
theorem CategoryTable.behaves_as_map (assignments : List (Char × Category)) :
    ((∀ character, (empty.assignAll assignments).sets.flatten.count character ≤ 1) ∧
      (empty.assignAll assignments).sets[Category.other.code]? = some []) ∧
    (∀ character other, ∀ category ∈ Category.ofCharacters,
      ((empty.assignAll assignments).assign character category).category other =
        if other = character then category else (empty.assignAll assignments).category other) ∧
    (∀ order character, lookUpOrder ⊆ order →
      lookUp order (empty.assignAll assignments) character =
        (empty.assignAll assignments).category character) ∧
    (∀ (reader : Reader) character,
      reader.tokens ((empty.assignAll assignments).assign character
          ((empty.assignAll assignments).category character)) =
        reader.tokens (empty.assignAll assignments)) ∧
    ∀ (reader : Reader) (changes others : List (Char × Category)), changes.Perm others →
      (changes.map Prod.fst).Nodup →
        reader.tokens ((empty.assignAll assignments).assignAll changes) =
          reader.tokens ((empty.assignAll assignments).assignAll others) := by
  have proper : (empty.assignAll assignments).Proper := proper_empty.assignAll assignments
  generalize empty.assignAll assignments = table at proper ⊢
  refine ⟨⟨List.nodup_iff_count_le_one.mp proper.distinct, ?unlisted⟩, ?assigned, ?searched,
    ?idempotent, ?permuted⟩
  case unlisted => rw [table.getElem?_sets (by decide), proper.noOther]
  case assigned =>
    intro character other category listed
    rw [category_assign, Category.ofCharacter_of_mem listed]
    simp only [eq_comm]
  case searched => exact fun order character complete => proper.lookUp_eq complete character
  case idempotent =>
    exact fun reader character =>
      reader.tokens_of_category_eq (table.category_assign_self character)
  case permuted =>
    exact fun reader changes others sameOnes distinct =>
      reader.tokens_of_category_eq (table.category_assignAll_perm sameOnes distinct)

/-- Two signs that get their categories in the one order or in the other, the first of them in
place of the one it had. -/
theorem CategoryTable.behaves_as_map_swap :
    lookUpOrder ⊆ lookUpOrder.reverse ∧
    lookUp lookUpOrder.reverse (empty.assignAll [('!', .letter)]) '!' = .letter ∧
    (Reader.ofText "!?!" "signs").tokens
        ((empty.assignAll [('!', .letter)]).assignAll [('!', .active), ('?', .comment)]) =
      (Reader.ofText "!?!" "signs").tokens
        ((empty.assignAll [('!', .letter)]).assignAll [('?', .comment), ('!', .active)]) := by
  obtain ⟨_, _, searched, _, permuted⟩ := behaves_as_map [('!', .letter)]
  have complete : lookUpOrder ⊆ lookUpOrder.reverse := by decide
  exact ⟨complete, (searched _ '!' complete).trans (by decide),
    permuted _ _ _ (.swap _ _ _) (by decide)⟩

end TexTree
