import Mathlib.Tactic.Common
import TexTree.Quantity.Basic

/-!
# Products, quotients and sums of quantities

A product or a quotient is formed of each component of a quantity.  It exists if all the
components of it fit into words, and is then exact (`multiply?_eq`, `divide?_eq`): the kind of
the quantity, the orders of infinity and what is absent stay as they are.

A sum always exists, since words are saturated.  How a component by which glue stretches or
shrinks is combined with another one is decided by their ranks: absent, finite, or one of the
orders of infinity.  The one of higher rank is kept, and those of the same rank are added
(`Fill.add_eq`).
-/

namespace TexTree

namespace Word

end Word

namespace Fill

/-- The amounts in the component: none if it is absent. -/
def components : Fill → List Int
  | .none => []
  | .finite length => [length.scaledPoints]
  | .infinite _ factor => [factor]

/-- The amount of the component, zero if it is absent. -/
def amount : Fill → Int
  | .none => 0
  | .finite length => length.scaledPoints
  | .infinite _ factor => factor

/-- The component with another amount.  If it is absent, it stays absent. -/
def map (change : Int → Int) : Fill → Fill
  | .none => .none
  | .finite length => .finite ⟨change length.scaledPoints⟩
  | .infinite order factor => .infinite order (change factor)

/-- The place of the component in the order of what absorbs what. -/
def rank : Fill → Nat
  | .none => 0
  | .finite _ => 1
  | .infinite order _ => order + 2

/-- The component of higher rank, or the sum of two of the same rank. -/
def joined (left right : Fill) : Fill :=
  if left.rank < right.rank then right
  else if right.rank < left.rank then left
  else left.map fun amount => Word.saturate (amount + right.amount)

/-- The ranks decide how two components are added. -/
theorem add_eq (left right : Fill) : left.add right = left.joined right := by
  cases left <;> cases right <;> try rfl
  -- Only two orders of infinity have to be compared.
  case infinite order factor order' factor' =>
    simp only [add, joined, rank, map, amount, Nat.add_lt_add_iff_right]
    rcases Nat.lt_trichotomy order order' with below | rfl | above
    · rw [if_neg (Nat.ne_of_lt below), if_neg (Nat.lt_asymm below), if_pos below]
    · simp only [if_true, Nat.lt_irrefl, if_false]
    · rw [if_neg (Nat.ne_of_gt above), if_pos above, if_neg (Nat.lt_asymm above), if_pos above]

end Fill

namespace Glue

/-- The base and the amounts by which the glue stretches and shrinks. -/
def components (glue : Glue) : List Int :=
  glue.base.scaledPoints :: (glue.stretch.components ++ glue.shrink.components)

/-- The glue with other amounts. -/
def map (change : Int → Int) (glue : Glue) : Glue :=
  ⟨⟨change glue.base.scaledPoints⟩, glue.stretch.map change, glue.shrink.map change⟩

end Glue

namespace Quantity

/-- The numbers that the quantity consists of. -/
def components : Quantity → List Int
  | .count value => [value]
  | .dimen length => [length.scaledPoints]
  | .skip glue | .muskip glue => glue.components

/-- The quantity with other numbers. -/
def map (change : Int → Int) : Quantity → Quantity
  | .count value => .count (change value)
  | .dimen length => .dimen ⟨change length.scaledPoints⟩
  | .skip glue => .skip (glue.map change)
  | .muskip glue => .muskip (glue.map change)

/-- The quantities are both integers, lengths, glue for text, or glue for formulas. -/
def SameKind : Quantity → Quantity → Prop
  | .count _, .count _ | .dimen _, .dimen _ | .skip _, .skip _ | .muskip _, .muskip _ => True
  | _, _ => False

/-- The sum of two quantities of the same kind. -/
structure IsSum (left right sum : Quantity) : Prop where
  sameKind : sum.SameKind left
  toInt : sum.toInt = Word.saturate (left.toInt + right.toInt)
  stretch : sum.stretch = left.stretch.joined right.stretch
  shrink : sum.shrink = left.shrink.joined right.shrink

end Quantity

/-! ## Partial operations -/

section Guarded

variable {possible : Int → Prop} [DecidablePred possible] {change : Int → Int}

/-- An operation that is possible for some numbers only. -/
def guarded (possible : Int → Prop) [DecidablePred possible] (change : Int → Int)
    (value : Int) : Option Int :=
  if possible value then some (change value) else none

theorem Fill.mapM?_guarded (fill : Fill) :
    fill.mapM? (guarded possible change) =
      if ∀ value ∈ fill.components, possible value then some (fill.map change)
      else Option.none := by
  cases fill with
  | none => simp [mapM?, components, map]
  | finite length =>
      simp only [mapM?, guarded, components, List.forall_mem_singleton]
      split <;> rfl
  | infinite order factor =>
      simp only [mapM?, guarded, components, List.forall_mem_singleton]
      split <;> rfl

theorem Glue.mapM?_guarded (glue : Glue) :
    glue.mapM? (guarded possible change) =
      if ∀ value ∈ glue.components, possible value then some (glue.map change) else none := by
  simp only [mapM?, Fill.mapM?_guarded, guarded, components, List.forall_mem_cons,
    List.forall_mem_append]
  by_cases base : possible glue.base.scaledPoints
  case neg => simp only [base, if_false, false_and, Option.bind_eq_bind, Option.bind_none]
  by_cases stretch : ∀ value ∈ glue.stretch.components, possible value
  case neg => simp [base, stretch]
  by_cases shrink : ∀ value ∈ glue.shrink.components, possible value
  case neg => simp [base, shrink]
  rw [if_pos base, if_pos stretch, if_pos shrink, if_pos ⟨base, stretch, shrink⟩]
  rfl

/-- An operation on a quantity is possible if it is possible for all its components. -/
theorem Quantity.mapM?_guarded (quantity : Quantity) :
    quantity.mapM? (guarded possible change) =
      if ∀ value ∈ quantity.components, possible value then some (quantity.map change)
      else none := by
  cases quantity with
  | count value =>
      simp only [mapM?, guarded, components, List.forall_mem_singleton]
      split <;> rfl
  | dimen length =>
      simp only [mapM?, guarded, components, List.forall_mem_singleton]
      split <;> rfl
  | skip glue =>
      rw [mapM?, Glue.mapM?_guarded, components]
      split <;> rfl
  | muskip glue =>
      rw [mapM?, Glue.mapM?_guarded, components]
      split <;> rfl

end Guarded

namespace Quantity

/-- The product is exact if all its components fit into words; otherwise there is none. -/
theorem multiply?_eq (quantity : Quantity) (factor : Int) :
    quantity.multiply? factor =
      if ∀ value ∈ quantity.components, Word.Fits (value * factor) then
        some (quantity.map (· * factor)) else none :=
  quantity.mapM?_guarded

/-- The quotient is exact up to its fraction if all its components fit into words; otherwise
there is none. -/
theorem divide?_eq (quantity : Quantity) {divisor : Int} (nonzero : divisor ≠ 0) :
    quantity.divide? divisor =
      if ∀ value ∈ quantity.components, Word.Fits (value.tdiv divisor) then
        some (quantity.map (·.tdiv divisor)) else none := by
  simp only [divide?, if_neg nonzero]
  exact quantity.mapM?_guarded

/-- The sum of quantities of the same kind is formed component by component. -/
theorem isSum_add {left right : Quantity} (same : right.SameKind left) :
    IsSum left right (left.add right) := by
  cases left <;> cases right <;> try exact same.elim
  case skip left right =>
    exact ⟨trivial, rfl, left.stretch.add_eq right.stretch, left.shrink.add_eq right.shrink⟩
  case muskip left right =>
    exact ⟨trivial, rfl, left.stretch.add_eq right.stretch, left.shrink.add_eq right.shrink⟩
  -- Numbers and lengths have no other components.
  all_goals exact ⟨trivial, rfl, rfl, rfl⟩

end Quantity

end TexTree
