/-!
# Signed words

Quantities are kept in signed words of 64 bits.  Arithmetic on them is done on
integers and then either clamped to the range of a word or refused.
-/

namespace TexTree.Word

/-- The least word. -/
def least : Int := -9223372036854775808

/-- The greatest word. -/
def greatest : Int := 9223372036854775807

/-- Whether the integer fits into a word. -/
def Fits (value : Int) : Prop := least ≤ value ∧ value ≤ greatest

instance (value : Int) : Decidable (Fits value) :=
  inferInstanceAs (Decidable (_ ∧ _))

/-- The word nearest to the integer. -/
def saturate (value : Int) : Int := max least (min value greatest)

/-- The integer, provided that it fits into a word. -/
def checked? (value : Int) : Option Int :=
  if Fits value then some value else none

/-- The word nearest to a floating point number rounded to the next integer,
with halves going away from zero; zero for an undefined number. -/
def ofFloat (value : Float) : Int := value.round.toInt64.toInt

/-- The floating point number nearest to a word. -/
def toFloat (value : Int) : Float := (Int64.ofInt value).toFloat

theorem saturate_fits (value : Int) : Fits (saturate value) := by
  unfold Fits saturate least greatest
  omega

theorem saturate_of_fits {value : Int} (fits : Fits value) :
    saturate value = value := by
  unfold Fits least greatest at fits
  unfold saturate least greatest
  omega

theorem checked?_eq_some_iff {value result : Int} :
    checked? value = some result ↔ Fits value ∧ value = result := by
  unfold checked?
  split <;> simp_all

end TexTree.Word
