/-!
# The shortest decimal of a binary fraction

A floating point number stands for all reals that round to it.  Its shortest
decimal is the one with the fewest digits among those reals, and the nearest to
the number where several have that length.  Everything is computed with exact
natural numbers.
-/

namespace TexTree.Decimal

/-- The decimal fraction `digits * 10 ^ exponent`. -/
structure Fraction where
  digits : Nat
  exponent : Int
  deriving DecidableEq, Repr

/-- The positive binary fraction `mantissa * 2 ^ exponent`.  The fraction is
`narrow` when the next smaller float is only half as far away as the next
larger one. -/
structure Binary where
  mantissa : Nat
  exponent : Int
  narrow : Bool
  deriving DecidableEq, Repr

namespace Binary

/-- The magnitude that the lower 63 bits of a double precision number encode. -/
def ofBits (bits : Nat) : Binary :=
  let field : Nat := bits / Nat.pow 2 52 % 2048
  let fraction : Nat := bits % Nat.pow 2 52
  if field = 0 then ⟨fraction, -1074, false⟩
  else ⟨Nat.pow 2 52 + fraction, (field : Int) - 1075, fraction = 0 && field > 1⟩

/-- A fraction and the ends of the interval of reals that round to it, as
numerators over one common denominator. -/
structure Interval where
  low : Nat
  value : Nat
  high : Nat
  denominator : Nat
  closed : Bool

/-- The reals that round to the fraction; the ends belong to them exactly when
the mantissa is even. -/
def interval (fraction : Binary) : Interval :=
  let shift := fraction.exponent - 2
  let factor := Nat.pow 2 shift.toNat
  let low := 4 * fraction.mantissa - if fraction.narrow then 1 else 2
  { low := low * factor
    value := 4 * fraction.mantissa * factor
    high := (4 * fraction.mantissa + 2) * factor
    denominator := Nat.pow 2 (-shift).toNat
    closed := fraction.mantissa % 2 = 0 }

namespace Interval

/-- The same interval measured in units of `10 ^ exponent`. -/
def inUnits (range : Interval) (exponent : Int) : Interval :=
  let factor := Nat.pow 10 (-exponent).toNat
  { range with
    low := range.low * factor
    value := range.value * factor
    high := range.high * factor
    denominator := range.denominator * Nat.pow 10 exponent.toNat }

/-- Whether a whole number of units lies in the interval. -/
def holds (range : Interval) (count : Nat) : Bool :=
  let point := count * range.denominator
  if range.closed then range.low ≤ point && point ≤ range.high
  else range.low < point && point < range.high

/-- The whole number of units in the interval that is nearest to the value; a
tie goes to the larger one. -/
def nearest? (range : Interval) : Option Nat :=
  let below := range.value / range.denominator
  match range.holds below, range.holds (below + 1) with
  | true, true =>
      if 2 * (range.value % range.denominator) < range.denominator then some below
      else some (below + 1)
  | true, false => some below
  | false, true => some (below + 1)
  | false, false => none

/-- The first power of ten, counted downwards from one tenth, that the value
reaches. -/
def smallMagnitude (range : Interval) : Nat → Nat → Int
  | 0, steps => -(steps : Int)
  | fuel + 1, steps =>
      if range.denominator ≤ range.value * Nat.pow 10 steps then -(steps : Int)
      else smallMagnitude range fuel (steps + 1)

/-- The exponent of the largest power of ten that does not exceed the value. -/
def magnitude (range : Interval) : Int :=
  let whole := range.value / range.denominator
  if whole = 0 then range.smallMagnitude 400 1
  else ((Nat.toDigits 10 whole).length : Int) - 1

/-- Try grids of growing fineness, from the given exponent downwards. -/
def search (range : Interval) : Nat → Int → Fraction
  | 0, exponent =>
      let scaled := range.inUnits exponent
      ⟨scaled.value / scaled.denominator, exponent⟩
  | fuel + 1, exponent =>
      match (range.inUnits exponent).nearest? with
      | some digits => ⟨digits, exponent⟩
      | none => search range fuel (exponent - 1)

end Interval

/-- The decimal with the fewest digits that rounds to the fraction; seventeen
digits always suffice. -/
def shortest (fraction : Binary) : Fraction :=
  let range := fraction.interval
  range.search 17 range.magnitude

end Binary

/-- Remove the zeros at the end of a list of digits. -/
def dropTrailingZeros (digits : List Char) : List Char :=
  (digits.reverse.dropWhile (· == '0')).reverse

/-- The positional form: no exponent mark, and no point after a whole number. -/
def Fraction.positional (number : Fraction) : List Char :=
  let digits := Nat.toDigits 10 number.digits
  if 0 ≤ number.exponent then digits ++ List.replicate number.exponent.toNat '0'
  else
    let places := (-number.exponent).toNat
    let padded := List.replicate (places + 1 - digits.length) '0' ++ digits
    let whole := padded.take (padded.length - places)
    match dropTrailingZeros (padded.drop (padded.length - places)) with
    | [] => whole
    | fraction => whole ++ '.' :: fraction

/-- The text of a floating point number: its shortest decimal in positional
form, with the sign also of a negative zero. -/
def text (number : Float) : String :=
  if number.isNaN then "NaN"
  else
    let bits := number.toBits.toNat
    let sign := if bits / Nat.pow 2 63 = 1 then "-" else ""
    let magnitude := bits % Nat.pow 2 63
    if number.isInf then sign ++ "inf"
    else if magnitude = 0 then sign ++ "0"
    else sign ++ String.ofList (Binary.ofBits magnitude).shortest.positional

end TexTree.Decimal
