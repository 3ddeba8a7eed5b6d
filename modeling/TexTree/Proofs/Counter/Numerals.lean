import Mathlib.Data.List.Induction
import Mathlib.Tactic.IntervalCases
import TexTree.Proofs.Counter.Printing

/-!
# Numerals are read back

Letters and roman numerals lose nothing of a positive number.  Read in base twenty-six,
where the letters are the digits from one to twenty-six and none of them is zero, the
letters of a number give the number, and every word of small letters is the numeral of its
value.  Read by the subtractive rule, a roman numeral gives its number; it consists of an
`m` for every thousand and of the standard numeral of what is left.

Hence no two positive numbers have the same numeral, nor two counters the same printed form
(`numerals_faithful`).
-/

namespace TexTree

namespace Numeral

/-! ## Letters -/

/-- The digit that a small letter stands for. -/
def digitOf (letter : Char) : Nat := letter.toNat - 96

/-- The number that small letters stand for in base twenty-six. -/
def alphabeticValue (letters : List Char) : Nat :=
  letters.foldl (fun number letter => 26 * number + digitOf letter) 0

@[simp] theorem alphabeticValue_nil : alphabeticValue [] = 0 := rfl

@[simp] theorem alphabeticValue_concat (letters : List Char) (letter : Char) :
    alphabeticValue (letters ++ [letter]) = 26 * alphabeticValue letters + digitOf letter := by
  rw [alphabeticValue, List.foldl_append]
  rfl

theorem digitOf_letter (position : Fin 26) : digitOf (letter position) = position + 1 := by
  revert position
  decide

/-- The letters of a number give the number. -/
theorem alphabeticValue_alphabeticDigits (number : Nat) :
    alphabeticValue (alphabeticDigits number) = number := by
  fun_induction alphabeticDigits number with
  | case1 => rfl
  | case2 number positive ih =>
      have isDigit : digitOf (letter ((number - 1) % 26)) = (number - 1) % 26 + 1 :=
        digitOf_letter ⟨(number - 1) % 26, Nat.mod_lt _ (by decide)⟩
      rw [alphabeticValue_concat, ih, isDigit]
      omega

/-- One more letter multiplies the number by twenty-six and adds its digit. -/
theorem alphabeticDigits_step (number : Nat) (position : Fin 26) :
    alphabeticDigits (26 * number + (position + 1)) =
      alphabeticDigits number ++ [letter position] := by
  have smaller := position.isLt
  have quotient : (26 * number + (position + 1) - 1) / 26 = number := by omega
  have remainder : (26 * number + (position + 1) - 1) % 26 = position := by omega
  rw [alphabeticDigits, if_neg (by omega), quotient, remainder]

/-- Small letters are the numeral of their value. -/
theorem alphabeticDigits_alphabeticValue {letters : List Char}
    (lower : ∀ letter ∈ letters, letter.isLower) :
    alphabeticDigits (alphabeticValue letters) = letters := by
  -- The last letter is the last digit.
  induction letters using List.reverseRecOn with
  | nil => rw [alphabeticValue_nil, alphabeticDigits, if_pos rfl]
  | append_singleton letters last ih =>
      obtain ⟨position, rfl⟩ := exists_letter_of_isLower (lower last (by simp))
      rw [alphabeticValue_concat, digitOf_letter, alphabeticDigits_step,
        ih fun letter member => lower letter (List.mem_append_left _ member)]

/-! ## Roman numerals -/

/-- The value of a roman symbol. -/
def symbolValue : Char → Nat
  | 'i' => 1
  | 'v' => 5
  | 'x' => 10
  | 'l' => 50
  | 'c' => 100
  | 'd' => 500
  | 'm' => 1000
  | _ => 0

/-- The value of roman symbols by the subtractive rule: a symbol in front of a greater one
is subtracted. -/
def romanValue : List Char → Int
  | [] => 0
  | [symbol] => symbolValue symbol
  | symbol :: next :: rest =>
      (if symbolValue symbol < symbolValue next then -symbolValue symbol
        else symbolValue symbol : Int) + romanValue (next :: rest)

/-- The standard numeral of a digit, in symbols for one, five and ten. -/
def standardDigit (one five ten : Char) : Nat → List Char
  | 0 => []
  | 1 => [one]
  | 2 => [one, one]
  | 3 => [one, one, one]
  | 4 => [one, five]
  | 5 => [five]
  | 6 => [five, one]
  | 7 => [five, one, one]
  | 8 => [five, one, one, one]
  | _ => [one, ten]

/-- The standard numeral of a number below a thousand: its hundreds, tens and ones. -/
def standardNumeral (number : Nat) : List Char :=
  standardDigit 'c' 'd' 'm' (number / 100) ++
    (standardDigit 'x' 'l' 'c' (number / 10 % 10) ++ standardDigit 'i' 'v' 'x' (number % 10))

/-- The symbols of one decimal place with the digits that they stand for. -/
def placeSymbols (one five ten : Char) : List (Nat × List Char) :=
  [(9, [one, ten]), (5, [five]), (4, [one, five]), (1, [one])]

/-- Symbols whose values are so many times as large. -/
def scaled (unit : Nat) (symbols : List (Nat × List Char)) : List (Nat × List Char) :=
  symbols.map fun symbol => (unit * symbol.1, symbol.2)

/-- What is left of a number when the symbols have been taken from it. -/
def leftOver (symbols : List (Nat × List Char)) (number : Nat) : Nat :=
  symbols.foldl (fun number symbol => number % symbol.1) number

theorem romanSymbols_eq :
    romanSymbols = (1000, ['m']) :: (scaled 100 (placeSymbols 'c' 'd' 'm') ++
      (scaled 10 (placeSymbols 'x' 'l' 'c') ++ scaled 1 (placeSymbols 'i' 'v' 'x'))) := rfl

/-- Symbols that are multiples of a unit are taken from the units of a number. -/
theorem romanUsing_scaled {unit : Nat} (symbols rest : List (Nat × List Char)) (units : Nat)
    {below : Nat} (isBelow : below < unit) :
    romanUsing (scaled unit symbols ++ rest) (unit * units + below) =
      romanUsing symbols units ++ romanUsing rest (unit * leftOver symbols units + below) := by
  induction symbols generalizing units with
  | nil => rfl
  | cons symbol symbols ih =>
      obtain ⟨value, symbol⟩ := symbol
      have positive : 0 < unit := Nat.zero_lt_of_lt isBelow
      have isUnits : (unit * units + below) / unit = units := by
        rw [Nat.mul_add_div positive, Nat.div_eq_of_lt isBelow, Nat.add_zero]
      have isBelow' : (unit * units + below) % unit = below := by
        rw [Nat.mul_add_mod, Nat.mod_eq_of_lt isBelow]
      have quotient : (unit * units + below) / (unit * value) = units / value := by
        rw [← Nat.div_div_eq_div_mul, isUnits]
      have remainder : (unit * units + below) % (unit * value) =
          unit * (units % value) + below := by
        rw [Nat.mod_mul, isUnits, isBelow', Nat.add_comm]
      rw [scaled, List.map_cons, List.cons_append, romanUsing, quotient, remainder, romanUsing,
        List.append_assoc]
      exact congrArg _ (ih (units % value))

/-- The symbols of one decimal place write its digit in the standard form and leave
nothing of it. -/
theorem romanUsing_place (one five ten : Char) {digit : Nat} (isDigit : digit < 10) :
    romanUsing (placeSymbols one five ten) digit = standardDigit one five ten digit ∧
      leftOver (placeSymbols one five ten) digit = 0 := by
  refine ⟨?_, by simp [leftOver, placeSymbols, Nat.mod_one]⟩
  interval_cases digit <;> rfl

theorem romanUsing_scaled_place (one five ten : Char) (rest : List (Nat × List Char)) {unit : Nat}
    (positive : 0 < unit) {number : Nat} (isBelow : number < unit * 10) :
    romanUsing (scaled unit (placeSymbols one five ten) ++ rest) number =
      standardDigit one five ten (number / unit) ++ romanUsing rest (number % unit) := by
  have isDigit : number / unit < 10 := Nat.div_lt_of_lt_mul isBelow
  obtain ⟨isStandard, nothing⟩ := romanUsing_place one five ten isDigit
  have parts := romanUsing_scaled (placeSymbols one five ten) rest (number / unit)
    (Nat.mod_lt number positive)
  rw [Nat.div_add_mod, isStandard, nothing, Nat.mul_zero, Nat.zero_add] at parts
  exact parts

/-- A roman numeral has an `m` for every thousand, followed by the standard numeral of what
is left. -/
theorem romanUsing_romanSymbols (number : Nat) :
    romanUsing romanSymbols number =
      List.replicate (number / 1000) 'm' ++ standardNumeral (number % 1000) := by
  have thousands : (List.replicate (number / 1000) ['m']).flatten =
      List.replicate (number / 1000) 'm' := by
    rw [List.flatten_replicate_singleton]
  have hundreds : number % 1000 < 100 * 10 := Nat.mod_lt _ (by decide)
  have tens : number % 1000 % 100 < 10 * 10 := Nat.mod_lt _ (by decide)
  have ones : number % 1000 % 100 % 10 < 1 * 10 := Nat.mod_lt _ (by decide)
  have last := romanUsing_scaled_place 'i' 'v' 'x' [] Nat.one_pos ones
  rw [List.append_nil, Nat.mod_one, romanUsing, List.append_nil, Nat.div_one] at last
  have tensDigit : number % 1000 % 100 / 10 = number % 1000 / 10 % 10 := by omega
  have onesDigit : number % 1000 % 100 % 10 = number % 1000 % 10 := by omega
  rw [romanSymbols_eq, romanUsing, thousands, romanUsing_scaled_place _ _ _ _ (by decide) hundreds,
    romanUsing_scaled_place _ _ _ _ (by decide) tens, last, tensDigit, onesDigit, standardNumeral]

/-! ## The subtractive rule -/

/-- Symbols are added to what follows them if nothing greater follows. -/
theorem romanValue_append {first second : List Char}
    (decreasing : ∀ symbol ∈ first, ∀ next ∈ second, symbolValue next ≤ symbolValue symbol) :
    romanValue (first ++ second) = romanValue first + romanValue second := by
  induction first with
  | nil => rw [List.nil_append, romanValue, Int.zero_add]
  | cons symbol rest ih =>
      have later := ih fun other member => decreasing other (List.mem_cons_of_mem _ member)
      cases rest with
      | nil =>
          cases second with
          | nil => rw [List.append_nil, romanValue, romanValue, Int.add_zero]
          | cons next second =>
              have notGreater := decreasing symbol List.mem_cons_self next List.mem_cons_self
              rw [List.singleton_append, romanValue.eq_def, romanValue.eq_def [symbol]]
              exact congrArg (· + _) (if_neg (Nat.not_lt.mpr notGreater))
      | cons next rest =>
          rw [List.cons_append, List.cons_append, romanValue, ← List.cons_append, later, romanValue,
            Int.add_assoc]

theorem romanValue_thousands (count : Nat) :
    romanValue (List.replicate count 'm') = 1000 * count := by
  induction count with
  | zero => rfl
  | succ count ih =>
      have split : List.replicate (count + 1) 'm' = ['m'] ++ List.replicate count 'm' := rfl
      rw [split, romanValue_append, ih]
      · simp only [romanValue, symbolValue]
        omega
      · intro symbol isFirst next isNext
        rw [List.mem_singleton.mp isFirst, List.eq_of_mem_replicate isNext]

/-- The values of the symbols in the numerals of digits. -/
theorem symbolValue_standardDigit (digit : Fin 10) :
    (∀ symbol ∈ standardDigit 'c' 'd' 'm' digit,
      100 ≤ symbolValue symbol ∧ symbolValue symbol ≤ 1000) ∧
    (∀ symbol ∈ standardDigit 'x' 'l' 'c' digit,
      10 ≤ symbolValue symbol ∧ symbolValue symbol ≤ 100) ∧
    ∀ symbol ∈ standardDigit 'i' 'v' 'x' digit,
      1 ≤ symbolValue symbol ∧ symbolValue symbol ≤ 10 := by
  have all : ∀ digit : Fin 10,
      ((standardDigit 'c' 'd' 'm' digit).all fun symbol =>
        decide (100 ≤ symbolValue symbol ∧ symbolValue symbol ≤ 1000)) = true ∧
      ((standardDigit 'x' 'l' 'c' digit).all fun symbol =>
        decide (10 ≤ symbolValue symbol ∧ symbolValue symbol ≤ 100)) = true ∧
      ((standardDigit 'i' 'v' 'x' digit).all fun symbol =>
        decide (1 ≤ symbolValue symbol ∧ symbolValue symbol ≤ 10)) = true := by decide
  simpa only [List.all_eq_true, decide_eq_true_eq] using all digit

theorem romanValue_standardDigit (digit : Fin 10) :
    romanValue (standardDigit 'c' 'd' 'm' digit) = 100 * digit ∧
      romanValue (standardDigit 'x' 'l' 'c' digit) = 10 * digit ∧
      romanValue (standardDigit 'i' 'v' 'x' digit) = digit := by
  revert digit
  decide

theorem symbolValue_standardNumeral {number : Nat} (small : number < 1000) :
    ∀ symbol ∈ standardNumeral number, symbolValue symbol ≤ 1000 := by
  intro symbol member
  have hundreds := (symbolValue_standardDigit ⟨number / 100, by omega⟩).1 symbol
  have tens := (symbolValue_standardDigit ⟨number / 10 % 10, by omega⟩).2.1 symbol
  have ones := (symbolValue_standardDigit ⟨number % 10, by omega⟩).2.2 symbol
  rcases List.mem_append.mp member with isHundred | later
  · exact (hundreds isHundred).2
  · rcases List.mem_append.mp later with isTen | isOne
    · exact Nat.le_trans (tens isTen).2 (by decide)
    · exact Nat.le_trans (ones isOne).2 (by decide)

theorem romanValue_standardNumeral {number : Nat} (small : number < 1000) :
    romanValue (standardNumeral number) = number := by
  have hundredsLarge := (symbolValue_standardDigit ⟨number / 100, by omega⟩).1
  have tensBetween := (symbolValue_standardDigit ⟨number / 10 % 10, by omega⟩).2.1
  have onesSmall := (symbolValue_standardDigit ⟨number % 10, by omega⟩).2.2
  have hundreds := (romanValue_standardDigit ⟨number / 100, by omega⟩).1
  have tens := (romanValue_standardDigit ⟨number / 10 % 10, by omega⟩).2.1
  have ones := (romanValue_standardDigit ⟨number % 10, by omega⟩).2.2
  dsimp only at hundredsLarge tensBetween onesSmall hundreds tens ones
  rw [standardNumeral, romanValue_append, romanValue_append, hundreds, tens, ones]
  · omega
  · intro symbol isTen next isOne
    exact Nat.le_trans (onesSmall next isOne).2 (tensBetween symbol isTen).1
  · intro symbol isHundred next isLater
    have large := (hundredsLarge symbol isHundred).1
    rcases List.mem_append.mp isLater with isTen | isOne
    · exact Nat.le_trans (tensBetween next isTen).2 large
    · exact Nat.le_trans (onesSmall next isOne).2 (Nat.le_trans (by decide) large)

/-- A roman numeral gives its number by the subtractive rule. -/
theorem romanValue_romanUsing (number : Nat) :
    romanValue (romanUsing romanSymbols number) = number := by
  have small : number % 1000 < 1000 := Nat.mod_lt _ (by decide)
  rw [romanUsing_romanSymbols, romanValue_append, romanValue_thousands,
    romanValue_standardNumeral small]
  · omega
  · intro symbol isThousand next isLater
    rw [List.eq_of_mem_replicate isThousand]
    exact symbolValue_standardNumeral small next isLater

/-- A standard numeral does not start with an `m`. -/
theorem head?_standardNumeral_ne {number : Nat} (small : number < 1000) :
    (standardNumeral number).head? ≠ some 'm' := by
  have hundreds : ∀ digit : Fin 10, (standardDigit 'c' 'd' 'm' digit).head? ≠ some 'm' := by decide
  have others : ∀ digit : Fin 10,
      'm' ∉ standardDigit 'x' 'l' 'c' digit ∧ 'm' ∉ standardDigit 'i' 'v' 'x' digit := by decide
  have noTen := (others ⟨number / 10 % 10, by omega⟩).1
  have noOne := (others ⟨number % 10, by omega⟩).2
  have first := hundreds ⟨number / 100, by omega⟩
  intro isThousand
  rw [standardNumeral, List.head?_append, Option.or_eq_some_iff] at isThousand
  rcases isThousand with isHundred | ⟨-, isLater⟩
  · exact first isHundred
  · rcases List.mem_append.mp (List.mem_of_head? isLater) with isTen | isOne
    · exact noTen isTen
    · exact noOne isOne

theorem span_thousands (count : Nat) {text : List Char} (other : text.head? ≠ some 'm') :
    (List.replicate count 'm' ++ text).takeWhile (· == 'm') = List.replicate count 'm' ∧
      (List.replicate count 'm' ++ text).dropWhile (· == 'm') = text := by
  have thousands : ∀ symbol ∈ List.replicate count 'm', (symbol == 'm') = true := by
    intro symbol member
    rw [List.eq_of_mem_replicate member]
    rfl
  rw [List.takeWhile_append_of_pos thousands, List.dropWhile_append_of_pos thousands]
  cases text with
  | nil => simp
  | cons first rest =>
      have notThousand : (first == 'm') = false := by simpa using other
      simp [notThousand]

/-! ## Printed forms -/

/-- Small letters can be told from the capital ones. -/
theorem eq_of_capital_eq {first second : String}
    (firstLower : ∀ character ∈ first.toList, character.isLower)
    (secondLower : ∀ character ∈ second.toList, character.isLower)
    (same : capital first = capital second) : first = second := by
  have back : ∀ position : Fin 26, (letter position).toUpper.toLower = letter position := by
    decide
  have restored : ∀ text : String, (∀ character ∈ text.toList, character.isLower) →
      (capital text).toList.map Char.toLower = text.toList := by
    intro text lower
    rw [capital, String.toList_ofList, List.map_map]
    conv_rhs => rw [← List.map_id text.toList]
    refine List.map_congr_left fun character member => ?_
    obtain ⟨position, rfl⟩ := exists_letter_of_isLower (lower character member)
    exact back position
  rw [← String.toList_inj, ← restored first firstLower, ← restored second secondLower, same]

theorem alphabetic_injective {first second : Int} (firstPositive : 0 < first)
    (secondPositive : 0 < second) (same : alphabetic first = alphabetic second) :
    first = second := by
  rw [alphabetic, alphabetic, String.ofList_inj] at same
  have values := congrArg alphabeticValue same
  rw [alphabeticValue_alphabeticDigits, alphabeticValue_alphabeticDigits] at values
  omega

theorem roman_injective {first second : Int} (firstPositive : 0 < first)
    (secondPositive : 0 < second) (same : roman first = roman second) : first = second := by
  rw [roman, roman, String.ofList_inj] at same
  have values := congrArg romanValue same
  rw [romanValue_romanUsing, romanValue_romanUsing] at values
  omega

end Numeral

open Numeral

/-- The styles that print a positive value as a numeral. -/
def Counter.numeralStyles : List String := ["roman", "Roman", "alph", "Alph"]

/-- Counters with positive values that are printed alike have the same value. -/
theorem Counter.value_eq_of_format? {style : String} (isNumeral : style ∈ numeralStyles)
    {first second : Counter} (firstPositive : 0 < first.value) (secondPositive : 0 < second.value)
    (same : first.format? style = second.format? style) : first.value = second.value := by
  simp only [numeralStyles, List.mem_cons, List.not_mem_nil, or_false] at isNumeral
  rcases isNumeral with rfl | rfl | rfl | rfl <;>
    simp only [format?, Option.some.injEq] at same
  · exact roman_injective firstPositive secondPositive same
  · exact roman_injective firstPositive secondPositive
      (eq_of_capital_eq (isLower_roman _) (isLower_roman _) same)
  · exact alphabetic_injective firstPositive secondPositive same
  · exact alphabetic_injective firstPositive secondPositive
      (eq_of_capital_eq (isLower_alphabetic _) (isLower_alphabetic _) same)

/-- Letters and roman numerals lose nothing.  The letters of a positive number are read back
as that number, and letters are the numeral of the number that they are read as.  The roman
numeral of a number is read back as well, and consists of an `m` for every thousand and the
standard numeral of what is left.  So different positive numbers have different numerals, in
small and in capital letters. -/
theorem Numeral.numerals_faithful :
    (∀ number : Int, 1 ≤ number → (alphabeticValue (alphabetic number).toList : Int) = number) ∧
    (∀ letters : List Char, letters ≠ [] → (∀ letter ∈ letters, letter.isLower) →
      1 ≤ alphabeticValue letters ∧
        alphabetic (alphabeticValue letters) = String.ofList letters) ∧
    (∀ number : Int, 0 ≤ number →
      romanValue (roman number).toList = number ∧
      (roman number).toList.takeWhile (· == 'm') = List.replicate (number.toNat / 1000) 'm' ∧
      (roman number).toList.dropWhile (· == 'm') = standardNumeral (number.toNat % 1000)) ∧
    (∀ first second : Int, 0 < first → 0 < second →
      (alphabetic first = alphabetic second → first = second) ∧
      (roman first = roman second → first = second)) ∧
    ∀ style ∈ Counter.numeralStyles, ∀ first second : Counter,
      0 < first.value → 0 < second.value → first.format? style = second.format? style →
        first.value = second.value := by
  refine ⟨?letters, ?words, ?roman, ?injective, ?styles⟩
  case letters =>
    intro number positive
    rw [alphabetic, String.toList_ofList, alphabeticValue_alphabeticDigits]
    omega
  case words =>
    intro letters nonempty lower
    have isNumeral := alphabeticDigits_alphabeticValue lower
    refine ⟨Nat.pos_of_ne_zero fun isZero => nonempty ?_, ?_⟩
    · rw [← isNumeral, isZero, alphabeticDigits, if_pos rfl]
    · rw [alphabetic, Int.toNat_natCast, isNumeral]
  case roman =>
    intro number nonneg
    have small : number.toNat % 1000 < 1000 := Nat.mod_lt _ (by decide)
    rw [Numeral.roman, String.toList_ofList, romanValue_romanUsing, romanUsing_romanSymbols]
    exact ⟨Int.toNat_of_nonneg nonneg, span_thousands _ (head?_standardNumeral_ne small)⟩
  case injective =>
    exact fun first second firstPositive secondPositive =>
      ⟨alphabetic_injective firstPositive secondPositive,
        roman_injective firstPositive secondPositive⟩
  case styles =>
    exact fun style isNumeral first second => Counter.value_eq_of_format? isNumeral

/-- A number with a carry into a third letter, and one with every subtracted symbol. -/
theorem Numeral.numerals_faithful_carry :
    (1 : Int) ≤ 703 ∧ (alphabeticValue (alphabetic 703).toList : Int) = 703 ∧
      alphabetic (alphabeticValue ['a', 'a', 'a']) = "aaa" ∧
      romanValue (roman 1994).toList = 1994 := by
  obtain ⟨letters, words, roman, _, _⟩ := numerals_faithful
  have lower : ∀ letter ∈ ['a', 'a', 'a'], letter.isLower = true := List.all_eq_true.mp rfl
  exact ⟨by decide, letters 703 (by decide), (words _ (by decide) lower).2,
    (roman 1994 (by decide)).1⟩

/-- A numeral with every subtracted symbol, and the last one of two letters. -/
example : romanValue "mcmxciv".toList = 1994 ∧ standardNumeral 994 = "cmxciv".toList ∧
    alphabeticValue "zz".toList = 702 := by decide

end TexTree
