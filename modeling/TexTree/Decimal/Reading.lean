/-!
# Reading decimals

A decimal constant is a sequence of digits with at most one point.  Its value is
the floating point number nearest to the decimal.
-/

namespace TexTree.Decimal

/-- The value of a sequence of decimal digits. -/
def digitsValue (digits : List Char) : Nat :=
  digits.foldl (fun value digit => 10 * value + (digit.toNat - 48)) 0

/-- The number that digits, with at most one point among them, denote; nothing
if there is no digit at all or some other character. -/
def read? (characters : List Char) : Option Float :=
  let whole := characters.takeWhile (· != '.')
  let fraction := (characters.dropWhile (· != '.')).drop 1
  let digits := whole ++ fraction
  if digits.isEmpty || !digits.all Char.isDigit then none
  else some (Float.ofScientific (digitsValue digits) true fraction.length)

end TexTree.Decimal
