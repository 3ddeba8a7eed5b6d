import TexTree.Decimal.Shortest
import TexTree.Quantity.Word

/-!
# Dimensions, glue and register values

A dimension is a number of scaled points, 65536 of which make a point.  Glue is
a dimension with two components by which it may stretch and shrink; each of them
is absent, finite, or infinite of one of three orders.  A register holds an
integer, a dimension, or glue for text or for formulas.
-/

namespace TexTree

/-- A length in scaled points. -/
structure Dimension where
  scaledPoints : Int
  deriving DecidableEq, Repr, Inhabited

namespace Dimension

/-- The number of scaled points in a point. -/
def perPoint : Float := 65536.0

/-- The units of measure, in the order in which they are tried. -/
def units : List String :=
  ["pt", "pc", "in", "bp", "cm", "mm", "dd", "cc", "sp", "ex", "em"]

/-- The number of scaled points in a unit of measure. -/
def unitFactor? : String → Option Float
  | "pt" => some perPoint
  | "pc" => some (12.0 * perPoint)
  | "in" => some (72.27 * perPoint)
  | "bp" => some ((72.27 * perPoint) / 72.0)
  | "cm" => some ((72.27 * perPoint) / 2.54)
  | "mm" => some ((72.27 * perPoint) / 25.4)
  | "dd" => some ((1238.0 / 1157.0) * perPoint)
  | "cc" => some (12.0 * (1238.0 / 1157.0) * perPoint)
  | "sp" => some 1.0
  | "ex" => some (5.0 * perPoint)
  | "em" => some (11.0 * perPoint)
  | _ => none

/-- A multiple of a number of scaled points. -/
def scaled (value factor : Float) : Dimension := ⟨Word.ofFloat (value * factor)⟩

/-- A multiple of a unit of measure. -/
def ofUnit? (value : Float) (unit : String) : Option Dimension :=
  (unitFactor? unit).map (scaled value)

/-- The length in points. -/
def points (length : Dimension) : Float := Word.toFloat length.scaledPoints / perPoint

/-- The length in a unit as large as a point, with one decimal if it is a whole
number of them and with at most five decimals otherwise. -/
def textIn (unit : String) (length : Dimension) : String :=
  let points := length.points
  if points.floor == points then toString points.toInt64.toInt ++ ".0" ++ unit
  else Decimal.text ((points * 100000.0).round / 100000.0) ++ unit

/-- The length in points. -/
def text : Dimension → String := textIn "pt"

/-- The sum of two lengths, clamped to the range of a word. -/
def add (left right : Dimension) : Dimension :=
  ⟨Word.saturate (left.scaledPoints + right.scaledPoints)⟩

/-- The opposite length, clamped to the range of a word. -/
def neg (length : Dimension) : Dimension := ⟨Word.saturate (-length.scaledPoints)⟩

end Dimension

/-- How far glue may stretch or shrink. -/
inductive Fill where
  | none
  | finite (length : Dimension)
  /-- Orders one to three stand for `fil`, `fill` and `filll`. -/
  | infinite (order : Nat) (factor : Int)
  deriving DecidableEq, Repr, Inhabited

namespace Fill

/-- The offset by which the orders of infinity are set apart in `encoded`. -/
def orderOffset : Int := 2000000000

/-- A single number for the component: finite lengths stand for themselves, and
each order of infinity adds an offset. -/
def encoded : Fill → Int
  | .none => 0
  | .finite length => length.scaledPoints
  | .infinite order factor => Word.saturate (orderOffset * order + factor)

/-- The component as it is written after `plus` or `minus`. -/
def textIn (unit : String) : Fill → String
  | .none => ""
  | .finite length => length.textIn unit
  | .infinite order factor =>
      Decimal.text (Dimension.points ⟨factor⟩) ++ "fi" ++ String.ofList (List.replicate order 'l')

/-- The component with finite lengths in points. -/
def text : Fill → String := textIn "pt"

/-- The sum of two components: the higher order of infinity wins, equal orders
are added, and any order of infinity absorbs finite lengths. -/
def add : Fill → Fill → Fill
  | .finite left, .finite right => .finite (left.add right)
  | .infinite order factor, .infinite order' factor' =>
      if order = order' then .infinite order (Word.saturate (factor + factor'))
      else if order > order' then .infinite order factor
      else .infinite order' factor'
  | .infinite order factor, _ => .infinite order factor
  | _, .infinite order factor => .infinite order factor
  | .none, other => other
  | other, .none => other

/-- Apply a partial operation to the amount of the component. -/
def mapM? (operation : Int → Option Int) : Fill → Option Fill
  | .none => some .none
  | .finite length => (operation length.scaledPoints).map fun amount => .finite ⟨amount⟩
  | .infinite order factor => (operation factor).map (.infinite order)

end Fill

/-- A length that may stretch and shrink. -/
structure Glue where
  base : Dimension
  stretch : Fill
  shrink : Fill
  deriving DecidableEq, Repr, Inhabited

namespace Glue

/-- Glue without length that neither stretches nor shrinks. -/
def zero : Glue := ⟨⟨0⟩, .none, .none⟩

/-- The glue with its finite lengths in the given unit; absent components are
not written. -/
def textIn (unit : String) (glue : Glue) : String :=
  let component (keyword : String) (fill : Fill) : String :=
    if fill = .none then "" else keyword ++ fill.textIn unit
  glue.base.textIn unit ++ component " plus " glue.stretch ++ component " minus " glue.shrink

/-- The glue with its finite lengths in points. -/
def text : Glue → String := textIn "pt"

/-- The sum, component by component. -/
def add (left right : Glue) : Glue :=
  ⟨left.base.add right.base, left.stretch.add right.stretch, left.shrink.add right.shrink⟩

/-- Lengthen the base only. -/
def addBase (glue : Glue) (amount : Int) : Glue :=
  { glue with base := glue.base.add ⟨amount⟩ }

/-- Apply a partial operation to every component. -/
def mapM? (operation : Int → Option Int) (glue : Glue) : Option Glue := do
  let base ← operation glue.base.scaledPoints
  let stretch ← glue.stretch.mapM? operation
  let shrink ← glue.shrink.mapM? operation
  return ⟨⟨base⟩, stretch, shrink⟩

end Glue

/-- What a register holds. -/
inductive Quantity where
  | count (value : Int)
  | dimen (length : Dimension)
  | skip (glue : Glue)
  | muskip (glue : Glue)
  deriving DecidableEq, Repr, Inhabited

namespace Quantity

/-- The value where a number is wanted. -/
def toInt : Quantity → Int
  | .count value => value
  | .dimen length => length.scaledPoints
  | .skip glue | .muskip glue => glue.base.scaledPoints

/-- The value as text; glue for formulas is measured in mathematical units. -/
def text : Quantity → String
  | .count value => toString value
  | .dimen length => length.text
  | .skip glue => glue.text
  | .muskip glue => glue.textIn "mu"

/-- The stretch component, absent for values that are not glue. -/
def stretch : Quantity → Fill
  | .skip glue | .muskip glue => glue.stretch
  | _ => .none

/-- The shrink component, absent for values that are not glue. -/
def shrink : Quantity → Fill
  | .skip glue | .muskip glue => glue.shrink
  | _ => .none

/-- The sum as `\advance` forms it: glue of the same kind is added component by
component, and of any other value only the integer counts. -/
def add : Quantity → Quantity → Quantity
  | .skip left, .skip right => .skip (left.add right)
  | .muskip left, .muskip right => .muskip (left.add right)
  | .count left, right => .count (Word.saturate (left + right.toInt))
  | .dimen left, right => .dimen (left.add ⟨right.toInt⟩)
  | .skip left, right => .skip (left.addBase right.toInt)
  | .muskip left, right => .muskip (left.addBase right.toInt)

/-- Apply a partial operation to every component. -/
def mapM? (operation : Int → Option Int) : Quantity → Option Quantity
  | .count value => (operation value).map .count
  | .dimen length => (operation length.scaledPoints).map fun value => .dimen ⟨value⟩
  | .skip glue => (glue.mapM? operation).map .skip
  | .muskip glue => (glue.mapM? operation).map .muskip

/-- The exact product of every component with an integer, or nothing if one of
them does not fit into a word. -/
def multiply? (quantity : Quantity) (factor : Int) : Option Quantity :=
  quantity.mapM? fun value => Word.checked? (value * factor)

/-- The quotient of every component by an integer, truncated towards zero, or
nothing if the divisor is zero or some quotient does not fit into a word. -/
def divide? (quantity : Quantity) (divisor : Int) : Option Quantity :=
  quantity.mapM? fun value =>
    if divisor = 0 then none else Word.checked? (value.tdiv divisor)

end Quantity

end TexTree
