import Mathlib.Data.List.Nodup
import Mathlib.Data.List.Perm.Basic
import Mathlib.Logic.Function.Basic
import TexTree.Category

/-!
# Category tables are maps

A category table searches its sets of characters one after the other.  Whatever assignments it was
made by, no character stands in two sets or twice in one, and the set of ordinary characters is
empty (`CategoryTable.Proper`), so that the sets may be searched in any order
(`CategoryTable.Proper.lookUp_eq`).

An assignment changes the category of one character (`CategoryTable.category_assign`), and several
of them are so many updates of a map (`CategoryTable.category_assignAll`).  So assignments to
different characters can be made in any order (`CategoryTable.category_assignAll_perm`), even
though the sets come out in another order then.
-/

namespace TexTree

namespace Category

theorem code_injective : Function.Injective code := by
  have inverse : Function.LeftInverse
      (fun number => if number = 100 then frozen else if number = 101 then endOfList
        else ofCharacters.getD number other) code := by
    intro category
    cases category <;> rfl
  exact inverse.injective

/-- The category that a character has when it was given the stated one.  Categories of
tokens have no set, and leave an ordinary character. -/
def ofCharacter (category : Category) : Category :=
  if category ∈ CategoryTable.lookUpOrder then category else .other

theorem ofCharacter_of_mem {category : Category} (listed : category ∈ ofCharacters) :
    category.ofCharacter = category := by
  revert category
  decide

/-- The categories that are searched are those that have a set, without that of ordinary
characters. -/
theorem mem_lookUpOrder_iff {category : Category} :
    category ∈ CategoryTable.lookUpOrder ↔ category ≠ .other ∧ category.code < 16 := by
  cases category <;> decide

end Category

namespace CategoryTable

variable {table : CategoryTable} {character : Char} {category : Category}

/-! ## The sets behind an assignment -/

theorem getElem?_sets (table : CategoryTable) (inRange : category.code < 16) :
    table.sets[category.code]? = some (table.characters category) := by
  simp [characters, table.length_sets, inRange]

theorem code_lt_of_mem (listed : character ∈ table.characters category) : category.code < 16 := by
  by_contra outside
  have isOutside : table.sets.length ≤ category.code := table.length_sets ▸ Nat.le_of_not_lt outside
  simp [characters, List.getElem?_eq_none isOutside] at listed

theorem characters_strip (table : CategoryTable) (character : Char) (category : Category) :
    (table.strip character).characters category =
      (table.characters category).filter (· != character) := by
  simp only [characters, strip, List.getD_eq_getElem?_getD, List.getElem?_map]
  cases table.sets[category.code]? <;> rfl

theorem characters_push (table : CategoryTable) (character : Char) {category : Category}
    (inRange : category.code < 16) (which : Category) :
    (table.push character category).characters which =
      if which = category then table.characters which ++ [character]
      else table.characters which := by
  have isCode : category.code = which.code ↔ which = category :=
    Category.code_injective.eq_iff.trans eq_comm
  simp only [characters, push, List.getD_eq_getElem?_getD, List.getElem?_modify, isCode]
  split
  · next same =>
      subst same
      simp [table.length_sets, inRange]
  · cases table.sets[which.code]? <;> rfl

/-- The categories of tokens have no set to which a character is added. -/
theorem push_of_le (table : CategoryTable) (character : Char)
    (outside : 16 ≤ category.code) : table.push character category = table := by
  obtain ⟨sets, isLength⟩ := table
  simp only [push, mk.injEq]
  exact List.modify_eq_self (isLength ▸ outside)

/-- An assignment takes the character out of every set, and adds it to one at most. -/
theorem characters_assign (table : CategoryTable) (character : Char) (category which : Category) :
    (table.assign character category).characters which =
      if which = category ∧ category ∈ lookUpOrder then
        (table.characters which).filter (· != character) ++ [character]
      else (table.characters which).filter (· != character) := by
  unfold assign
  by_cases isOther : category = .other
  · subst isOther
    simp [characters_strip, Category.mem_lookUpOrder_iff]
  · by_cases inRange : category.code < 16
    · simp [isOther, characters_push _ _ inRange, characters_strip, Category.mem_lookUpOrder_iff,
        inRange]
    · simp [isOther, push_of_le _ _ (Nat.le_of_not_lt inRange), characters_strip,
        Category.mem_lookUpOrder_iff, inRange]

theorem mem_characters_assign {other : Char} {which : Category} :
    other ∈ (table.assign character category).characters which ↔
      if other = character then which = category ∧ category ∈ lookUpOrder
      else other ∈ table.characters which := by
  rw [characters_assign]
  by_cases same : other = character <;> split <;> simp_all

/-! ## What is found -/

/-- A character of another category than that of ordinary ones stands in its set. -/
theorem mem_characters_of_category (found : table.category character = category)
    (notOther : category ≠ .other) :
    category ∈ lookUpOrder ∧ character ∈ table.characters category := by
  unfold CategoryTable.category lookUp at found
  cases isFound : lookUpOrder.find? fun category =>
      (table.characters category).contains character with
  | none =>
      rw [isFound] at found
      exact absurd found.symm notOther
  | some first =>
      obtain rfl : first = category := by rwa [isFound] at found
      have holds := List.find?_some isFound
      exact ⟨List.mem_of_find?_eq_some isFound, by simpa using holds⟩

/-- A character has a category that is searched, or is an ordinary one. -/
theorem ofCharacter_category (table : CategoryTable) (character : Char) :
    (table.category character).ofCharacter = table.category character := by
  by_cases isOther : table.category character = .other
  · rw [isOther]
    rfl
  · exact if_pos (mem_characters_of_category rfl isOther).1

theorem category_mem (table : CategoryTable) (character : Char) :
    table.category character ∈ Category.ofCharacters := by
  rw [← table.ofCharacter_category]
  cases table.category character <;> decide

theorem category_assign (table : CategoryTable) (character other : Char)
    (category : Category) :
    (table.assign character category).category other =
      if character = other then category.ofCharacter else table.category other := by
  have isSearched : ∀ which, ((table.assign character category).characters which).contains other =
      if character = other then decide (which = category ∧ category ∈ lookUpOrder)
      else (table.characters which).contains other := by
    intro which
    simp only [List.contains_eq_mem, mem_characters_assign, eq_comm (a := other)]
    split <;> rfl
  unfold CategoryTable.category lookUp
  simp only [isSearched]
  split
  · cases category <;> rfl
  · rfl

/-- Characters that get the same category have it; the others keep theirs. -/
theorem category_assignAll_map (table : CategoryTable) (characters : List Char)
    (category : Category) (character : Char) :
    (table.assignAll (characters.map (·, category))).category character =
      if character ∈ characters then category.ofCharacter else table.category character := by
  induction characters generalizing table with
  | nil => rfl
  | cons first rest ih =>
      rw [List.map_cons, assignAll, List.foldl_cons]
      refine (ih _).trans ?_
      rw [category_assign]
      by_cases inRest : character ∈ rest
      · simp [inRest]
      · simp [inRest, eq_comm]

/-! ## Characters stand in one set -/

/-- No character stands in two sets or twice in one, and no ordinary one stands in a set. -/
structure Proper (table : CategoryTable) : Prop where
  distinct : table.sets.flatten.Nodup
  noOther : table.characters .other = []

theorem proper_empty : empty.Proper := ⟨by decide, rfl⟩

theorem flatten_modify_perm {sets : List (List Char)} {place : Nat} (inRange : place < sets.length)
    (character : Char) :
    (sets.modify place (· ++ [character])).flatten.Perm (character :: sets.flatten) := by
  induction sets generalizing place with
  | nil => cases inRange
  | cons set sets ih =>
      cases place with
      | zero =>
          rw [List.modify_zero_cons, List.flatten_cons, List.flatten_cons, List.append_assoc,
            List.singleton_append]
          exact List.perm_middle
      | succ place =>
          rw [List.modify_succ_cons, List.flatten_cons, List.flatten_cons]
          exact ((ih (Nat.lt_of_succ_lt_succ inRange)).append_left set).trans List.perm_middle

theorem Proper.strip (proper : table.Proper) (character : Char) :
    (table.strip character).Proper := by
  refine ⟨?_, by rw [characters_strip, proper.noOther, List.filter_nil]⟩
  rw [CategoryTable.strip, ← List.filter_flatten]
  exact proper.distinct.filter _

theorem Proper.push (proper : table.Proper) (notOther : category ≠ .other)
    (isNew : character ∉ table.sets.flatten) : (table.push character category).Proper := by
  by_cases inRange : category.code < 16
  · refine ⟨?_, by rw [characters_push _ _ inRange, if_neg notOther.symm, proper.noOther]⟩
    have isPlace : category.code < table.sets.length := table.length_sets ▸ inRange
    rw [CategoryTable.push, (flatten_modify_perm isPlace character).nodup_iff]
    exact List.nodup_cons.mpr ⟨isNew, proper.distinct⟩
  · rwa [push_of_le _ _ (Nat.le_of_not_lt inRange)]

theorem Proper.assign (proper : table.Proper) (character : Char) (category : Category) :
    (table.assign character category).Proper := by
  unfold CategoryTable.assign
  split
  · exact proper.strip character
  · next notOther =>
      refine (proper.strip character).push notOther ?_
      simp [CategoryTable.strip]

theorem Proper.assignAll (proper : table.Proper) (assignments : List (Char × Category)) :
    (table.assignAll assignments).Proper := by
  induction assignments generalizing table with
  | nil => exact proper
  | cons assignment rest ih => exact ih (proper.assign assignment.1 assignment.2)

theorem Proper.mem_lookUpOrder (proper : table.Proper)
    (listed : character ∈ table.characters category) : category ∈ lookUpOrder := by
  refine Category.mem_lookUpOrder_iff.mpr ⟨?_, code_lt_of_mem listed⟩
  rintro rfl
  rw [proper.noOther] at listed
  cases listed

/-- A character stands in one set at most. -/
theorem Proper.eq_of_mem (proper : table.Proper) {which : Category}
    (listed : character ∈ table.characters category)
    (listedToo : character ∈ table.characters which) : category = which := by
  obtain ⟨place, isSet⟩ :=
    List.getElem?_eq_some_iff.mp (table.getElem?_sets (code_lt_of_mem listed))
  obtain ⟨placeToo, isSetToo⟩ :=
    List.getElem?_eq_some_iff.mp (table.getElem?_sets (code_lt_of_mem listedToo))
  rw [← isSet] at listed
  rw [← isSetToo] at listedToo
  have apart := List.pairwise_iff_getElem.mp (List.nodup_flatten.mp proper.distinct).2
  rcases Nat.lt_trichotomy category.code which.code with before | same | behind
  · exact (apart _ _ _ _ before listed listedToo).elim
  · exact Category.code_injective same
  · exact (apart _ _ _ _ behind listedToo listed).elim

theorem Proper.lookUp_of_mem (proper : table.Proper) {order : List Category}
    (inOrder : category ∈ order) (listed : character ∈ table.characters category) :
    lookUp order table character = category := by
  unfold lookUp
  cases found : order.find? fun category => (table.characters category).contains character with
  | none =>
      have missing := List.find?_eq_none.mp found category inOrder
      exact absurd (by simpa using listed) missing
  | some first =>
      have holds := List.find?_some found
      exact proper.eq_of_mem (by simpa using holds) listed

theorem lookUp_of_notMem (order : List Category)
    (missing : ∀ category, character ∉ table.characters category) :
    lookUp order table character = .other := by
  have unfound : order.find? (fun category => (table.characters category).contains character) =
      none := List.find?_eq_none.mpr fun category _ => by simpa using missing category
  rw [lookUp, unfound]
  rfl

/-- The sets may be searched in any order. -/
theorem Proper.lookUp_eq (proper : table.Proper) {order : List Category}
    (complete : lookUpOrder ⊆ order) (character : Char) :
    lookUp order table character = table.category character := by
  by_cases inSet : ∃ category, character ∈ table.characters category
  · obtain ⟨category, listed⟩ := inSet
    have inOrder := proper.mem_lookUpOrder listed
    exact (proper.lookUp_of_mem (complete inOrder) listed).trans
      (proper.lookUp_of_mem inOrder listed).symm
  · rw [not_exists] at inSet
    exact (lookUp_of_notMem order inSet).trans (lookUp_of_notMem lookUpOrder inSet).symm

/-! ## Several assignments -/

/-- A character can be given the category that it has. -/
theorem category_assign_self (table : CategoryTable) (character : Char) :
    (table.assign character (table.category character)).category = table.category := by
  funext other
  rw [category_assign, ofCharacter_category]
  split
  · next same => rw [same]
  · rfl

/-- Assignments to a table are updates of the map from characters to categories. -/
theorem category_assignAll (table : CategoryTable) (assignments : List (Char × Category)) :
    (table.assignAll assignments).category =
      assignments.foldl (fun map assignment =>
        Function.update map assignment.1 assignment.2.ofCharacter) table.category := by
  have updates : ∀ (table : CategoryTable) (character : Char) (category : Category),
      (table.assign character category).category =
        Function.update table.category character category.ofCharacter := by
    intro table character category
    funext other
    simp only [category_assign, Function.update_apply, eq_comm]
  induction assignments generalizing table with
  | nil => rfl
  | cons assignment rest ih =>
      rw [List.foldl_cons, ← updates, ← ih]
      rfl

/-- Assignments to different characters can be made in any order. -/
theorem category_assignAll_perm (table : CategoryTable)
    {assignments others : List (Char × Category)} (sameOnes : assignments.Perm others)
    (distinct : (assignments.map Prod.fst).Nodup) :
    (table.assignAll assignments).category = (table.assignAll others).category := by
  rw [category_assignAll, category_assignAll]
  refine sameOnes.foldl_eq' (fun first isFirst second isSecond map => ?_) _
  by_cases sameKey : first.1 = second.1
  · rw [List.inj_on_of_nodup_map distinct isFirst isSecond sameKey]
  · exact Function.update_comm sameKey _ _ _

end CategoryTable

end TexTree
