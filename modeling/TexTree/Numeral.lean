/-!
# Numerals

The forms in which the value of a counter is written besides decimal digits:
roman numerals, letters and footnote symbols.
-/

namespace TexTree.Numeral

/-- The symbols of roman numerals with their values, in decreasing order. -/
def romanSymbols : List (Nat × List Char) :=
  [(1000, ['m']), (900, ['c', 'm']), (500, ['d']), (400, ['c', 'd']), (100, ['c']),
    (90, ['x', 'c']), (50, ['l']), (40, ['x', 'l']), (10, ['x']), (9, ['i', 'x']),
    (5, ['v']), (4, ['i', 'v']), (1, ['i'])]

/-- Write each symbol as often as its value fits into what is left. -/
def romanUsing : List (Nat × List Char) → Nat → List Char
  | [], _ => []
  | (value, symbol) :: rest, number =>
      (List.replicate (number / value) symbol).flatten ++ romanUsing rest (number % value)

/-- The roman numeral in small letters; empty unless the number is positive. -/
def roman (number : Int) : String :=
  String.ofList (romanUsing romanSymbols number.toNat)

/-- The letter at a position of the alphabet, counted from zero. -/
def letter (position : Nat) : Char := Char.ofNat (97 + position)

/-- The numeral in base twenty-six whose digits are the letters, none of which
stands for zero. -/
def alphabeticDigits (number : Nat) : List Char :=
  if number = 0 then []
  else
    alphabeticDigits ((number - 1) / 26) ++ [letter ((number - 1) % 26)]
termination_by number
decreasing_by omega

/-- The number in small letters: `a` to `z`, then `aa`, `ab` and so on; empty
unless the number is positive. -/
def alphabetic (number : Int) : String :=
  String.ofList (alphabeticDigits number.toNat)

/-- The footnote symbols in their order. -/
def footnoteSymbols : List String :=
  ["*", "\u2020", "\u2021", "\u00a7", "\u00b6", "\u2016", "**", "\u2020\u2020",
    "\u2021\u2021"]

/-- The footnote symbol of a number from one to nine; empty for all others. -/
def footnoteSymbol (number : Int) : String :=
  if number ≤ 0 then "" else footnoteSymbols.getD (number.toNat - 1) ""

/-- The numeral in capital letters. -/
def capital (numeral : String) : String :=
  String.ofList (numeral.toList.map Char.toUpper)

end TexTree.Numeral
