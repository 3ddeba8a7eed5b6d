import Mathlib.Data.List.Basic
import TexTree.Counter.Template

/-!
# Printed numbers

The templates of counters drop zeros in front of separators, but only where a zero starts a
word; a text in which every zero stands behind a word character stays as it is
(`Template.ZerosInside`).  A number has no zero in front in any style, so that a template that
refers to one counter prints the value of the counter in the style that it asks for
(`Template.render_reference`).
-/

namespace TexTree

/-- A number that has no zero in front. -/
structure IsNumeral (text : List Char) : Prop where
  characters : ∀ character ∈ text, character.isAlphanum = true
  head : text.head? ≠ some '0'

namespace Template

/-- Every zero stands behind a character that belongs to a word.  The flag tells whether the text
itself stands behind such a character. -/
inductive ZerosInside : Bool → List Char → Prop where
  | nil {inWord : Bool} : ZerosInside inWord []
  | cons {inWord : Bool} {first : Char} {rest : List Char} (kept : first = '0' → inWord = true)
      (later : ZerosInside (Text.isWord first) rest) : ZerosInside inWord (first :: rest)

namespace ZerosInside

variable {inWord : Bool} {text front back : List Char}

/-- No zero is dropped that stands inside of a word. -/
theorem dropZeros (inside : ZerosInside inWord text) : dropZeros inWord text = text := by
  induction inside with
  | nil => rw [Template.dropZeros]
  | cons kept later ih =>
      rw [Template.dropZeros, if_neg (by simpa using kept), ih]

/-- Behind a word character there may be any text. -/
theorem anywhere (inside : ZerosInside false text) : ZerosInside inWord text := by
  cases inside with
  | nil => exact .nil
  | cons kept later => exact .cons (fun isZero => nomatch kept isZero) later

theorem append (inFront : ZerosInside inWord front) (inBack : ZerosInside false back) :
    ZerosInside inWord (front ++ back) := by
  induction inFront with
  | nil => exact inBack.anywhere
  | cons kept later ih => exact .cons kept ih

theorem of_noZero (noZero : '0' ∉ text) : ZerosInside inWord text := by
  induction text generalizing inWord with
  | nil => exact .nil
  | cons first rest ih =>
      rw [List.mem_cons, not_or] at noZero
      exact .cons (fun isZero => absurd isZero.symm noZero.1) (ih noZero.2)

/-- Letters and digits behind a word character continue the word. -/
theorem of_isAlphanum (characters : ∀ character ∈ text, character.isAlphanum = true) :
    ZerosInside true text := by
  induction text with
  | nil => exact .nil
  | cons first rest ih =>
      refine .cons (fun _ => rfl) ?_
      rw [Text.isWord_of_isAlphanum (characters first List.mem_cons_self)]
      exact ih fun other member => characters other (List.mem_cons_of_mem first member)

end ZerosInside

end Template

theorem IsNumeral.zerosInside {text : List Char} (isNumeral : IsNumeral text) :
    Template.ZerosInside false text := by
  cases text with
  | nil => exact .nil
  | cons first rest =>
      refine .cons (fun isZero => absurd (congrArg some isZero) isNumeral.head) ?_
      rw [Text.isWord_of_isAlphanum (isNumeral.characters first List.mem_cons_self)]
      exact .of_isAlphanum fun other member =>
        isNumeral.characters other (List.mem_cons_of_mem first member)

namespace Template

variable {counters : Counters} {formOf : String → Option Template} {template : Template}
  {name : String} {style : Option String} {counter : Counter}

/-- A template that refers to one counter prints its value. -/
theorem render_reference (isReference : pieces template.text.toList = [.reference name style])
    (isCounter : Text.afterMark? "the" name = none) (found : counters.get? name = some counter)
    (isNumeral : IsNumeral
      ((counter.format? (style.getD "arabic")).getD (toString counter.value)).toList) :
    template.render counters formOf =
      ((counter.format? (style.getD "arabic")).getD (toString counter.value), []) := by
  simp only [render, maxDepth, renderWith, assemble, isReference, List.map_cons, List.map_nil,
    printPiece, isCounter, styled, found, List.flatMap_cons, List.flatMap_nil, List.append_nil,
    isNumeral.zerosInside.dropZeros, String.ofList_toList]

end Template

namespace Numeral

/-! ## Letters -/

theorem exists_letter_of_isLower {character : Char} (isLower : character.isLower = true) :
    ∃ position : Fin 26, character = letter position := by
  have range : 97 ≤ character.toNat ∧ character.toNat ≤ 122 := by
    obtain ⟨least, greatest⟩ := Bool.and_eq_true_iff.mp isLower
    exact ⟨of_decide_eq_true least, of_decide_eq_true greatest⟩
  refine ⟨⟨character.toNat - 97, by omega⟩, ?_⟩
  have isCode : 97 + (character.toNat - 97) = character.toNat := by omega
  rw [letter, isCode, Char.ofNat_toNat]

theorem exists_letter_of_mem_alphabeticDigits (number : Nat) :
    ∀ character ∈ alphabeticDigits number,
      ∃ position : Fin 26, character = letter position := by
  fun_induction alphabeticDigits number with
  | case1 => simp
  | case2 number positive ih =>
      intro character member
      rcases List.mem_append.mp member with earlier | last
      · exact ih character earlier
      · exact ⟨⟨(number - 1) % 26, Nat.mod_lt _ (by decide)⟩, List.mem_singleton.mp last⟩

theorem isLower_alphabetic (number : Int) :
    ∀ character ∈ (alphabetic number).toList, character.isLower = true := by
  have letters : ∀ position : Fin 26, (letter position).isLower = true := by decide
  rw [alphabetic, String.toList_ofList]
  intro character member
  obtain ⟨position, rfl⟩ := exists_letter_of_mem_alphabeticDigits _ character member
  exact letters position

theorem isLower_of_mem_romanUsing (symbols : List (Nat × List Char)) (number : Nat)
    (lower : ∀ symbol ∈ symbols, ∀ character ∈ symbol.2, character.isLower = true) :
    ∀ character ∈ romanUsing symbols number, character.isLower = true := by
  induction symbols generalizing number with
  | nil => simp [romanUsing]
  | cons first rest ih =>
      obtain ⟨value, symbol⟩ := first
      intro character member
      rw [romanUsing, List.mem_append] at member
      rcases member with repeated | later
      · obtain ⟨copy, isCopy, inside⟩ := List.mem_flatten.mp repeated
        rw [List.eq_of_mem_replicate isCopy] at inside
        exact lower _ List.mem_cons_self character inside
      · exact ih _ (fun symbol listed => lower symbol (List.mem_cons_of_mem _ listed)) character
          later

theorem isLower_roman (number : Int) :
    ∀ character ∈ (roman number).toList, character.isLower = true := by
  have lower : (romanSymbols.all fun symbol => symbol.2.all Char.isLower) = true := by decide
  rw [roman, String.toList_ofList]
  exact isLower_of_mem_romanUsing _ _ fun symbol member =>
    List.all_eq_true.mp (List.all_eq_true.mp lower symbol member)

theorem isUpper_of_mem_capital {numeral : String}
    (lower : ∀ character ∈ numeral.toList, character.isLower = true) :
    ∀ character ∈ (capital numeral).toList, character.isUpper = true := by
  have letters : ∀ position : Fin 26, (letter position).toUpper.isUpper = true := by decide
  rw [capital, String.toList_ofList]
  intro character member
  obtain ⟨small, listed, rfl⟩ := List.mem_map.mp member
  obtain ⟨position, rfl⟩ := exists_letter_of_isLower (lower small listed)
  exact letters position

end Numeral

/-! ## Styles -/

/-- The digits of a positive number do not start with a zero. -/
theorem head?_toDigits_ne_zero {number : Nat} (positive : 0 < number) :
    (Nat.toDigits 10 number).head? ≠ some '0' := by
  induction number using Nat.strongRecOn with
  | ind number ih =>
      rw [Nat.toDigits_eq_if (by decide)]
      split
      · next small =>
          have digits : ∀ digit : Fin 10, 0 < digit.val →
              [Nat.digitChar digit].head? ≠ some '0' := by decide
          exact digits ⟨number, small⟩ positive
      · next large =>
          rw [List.head?_append_of_ne_nil _ Nat.toDigits_ne_nil]
          exact ih (number / 10) (by omega) (by omega)

/-- A positive number in decimal digits. -/
theorem isNumeral_toString {number : Nat} (positive : 0 < number) :
    IsNumeral (toString (number : Int)).toList := by
  have isDigits : (toString (number : Int)).toList = Nat.toDigits 10 number := by
    rw [Int.toString_eq_repr, Int.repr_eq_if]
    simp [Nat.toList_repr]
  rw [isDigits]
  refine ⟨fun character member => ?_, head?_toDigits_ne_zero positive⟩
  simp [Char.isAlphanum, Nat.isDigit_of_mem_toDigits (by decide) (by decide) member]

/-- Small letters are no digits. -/
theorem isNumeral_of_isLower {text : List Char}
    (lower : ∀ character ∈ text, character.isLower = true) : IsNumeral text where
  characters character member := by
    change (character.isUpper || character.isLower || character.isDigit) = true
    simp [lower character member]
  head isZero := by
    have notLower := lower '0' (List.mem_of_head? isZero)
    revert notLower
    decide

theorem isNumeral_alphabetic (number : Int) : IsNumeral (Numeral.alphabetic number).toList :=
  isNumeral_of_isLower (Numeral.isLower_alphabetic number)

theorem isNumeral_roman (number : Int) : IsNumeral (Numeral.roman number).toList :=
  isNumeral_of_isLower (Numeral.isLower_roman number)

/-- Capital letters are no digits. -/
theorem isNumeral_capital {numeral : String}
    (lower : ∀ character ∈ numeral.toList, character.isLower = true) :
    IsNumeral (Numeral.capital numeral).toList where
  characters character member := by
    change (character.isUpper || character.isLower || character.isDigit) = true
    simp [Numeral.isUpper_of_mem_capital lower character member]
  head isZero := by
    have notUpper := Numeral.isUpper_of_mem_capital lower '0' (List.mem_of_head? isZero)
    revert notUpper
    decide

theorem isNumeral_capital_alphabetic (number : Int) :
    IsNumeral (Numeral.capital (Numeral.alphabetic number)).toList :=
  isNumeral_capital (Numeral.isLower_alphabetic number)

theorem isNumeral_capital_roman (number : Int) :
    IsNumeral (Numeral.capital (Numeral.roman number)).toList :=
  isNumeral_capital (Numeral.isLower_roman number)

end TexTree
