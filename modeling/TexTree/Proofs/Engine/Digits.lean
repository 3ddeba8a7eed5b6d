import Mathlib.Data.Nat.Basic
import Mathlib.Order.Basic
import Mathlib.Data.Nat.Digits.Defs
import TexTree.Proofs.Engine.Facing
import TexTree.Proofs.Engine.FullExpansion

/-!
# Digits of integer constants

An integer constant consists of signs with spaces between them, a mark for its base unless
this is ten, and digits.  It ends at the end of the input, at a character that is no digit
of the base, or at a command that cannot be expanded (`Ends`).

While the digits are read, their value is kept in a word that is saturated in every step.
This is the same as saturating the value once (`held_cons`).
-/

namespace TexTree

/-- The bases in which an integer can be written. -/
inductive Radix where
  | decimal
  | octal
  | hexadecimal
  deriving DecidableEq, Repr

namespace Radix

def base : Radix → Nat
  | decimal => 10
  | octal => 8
  | hexadecimal => 16

theorem base_pos (radix : Radix) : 0 < radix.base := by cases radix <;> decide

/-- What stands in front of the digits. -/
def mark : Radix → List Token
  | decimal => []
  | octal => [.other '\'']
  | hexadecimal => [.other '"']

/-- The character for a digit; those above nine are capitals. -/
def character (digit : Nat) : Char := (Nat.digitChar digit).toUpper

/-- The token is a letter or another character that stands for a digit of the base. -/
def IsDigit (radix : Radix) (token : Token) : Prop :=
  (token.category = .other ∨ token.category = .letter) ∧
    ∃ digit < radix.base, token.text = String.singleton (character digit)

end Radix

/-- A digit with the category of its token: a digit above nine may be a letter. -/
structure Digit (radix : Radix) where
  value : Nat
  isBelow : value < radix.base
  category : Category
  isProper : category = .other ∨ category = .letter ∧ 10 ≤ value

/-- The digit as a token. -/
def Digit.token {radix : Radix} (digit : Digit radix) : Token :=
  .ofChar (Radix.character digit.value) digit.category

theorem Digit.isCharacter {radix : Radix} (digit : Digit radix) :
    digit.token.isControl = false := by
  change (digit.category == .escape) = false
  rcases digit.isProper with isOther | ⟨isLetter, -⟩
  · rw [isOther]
    rfl
  · rw [isLetter]
    rfl

/-- A digit is no sign, and no mark. -/
theorem Digit.text_notMem {radix : Radix} (digit : Digit radix) :
    digit.token.text ∉ ["-", "+", "'", "\"", "`"] := by
  have each : ∀ value < radix.base,
      String.singleton (Radix.character value) ∉ ["-", "+", "'", "\"", "`"] := by
    cases radix <;> decide
  exact each digit.value digit.isBelow

/-- The number that digits denote. -/
def Digit.number {radix : Radix} (digits : List (Digit radix)) : Nat :=
  Nat.ofDigits radix.base (digits.map Digit.value).reverse

/-- What may stand in front of the digits and their mark. -/
inductive Sign where
  | plus
  | minus
  | space (text : String)
  deriving DecidableEq, Repr

/-- Whether the sign is a minus. -/
def Sign.negates : Sign → Bool
  | minus => true
  | _ => false

/-- The sign as a token. -/
def Sign.token : Sign → Token
  | plus => .other '+'
  | minus => .other '-'
  | space text => ⟨text, .space, none⟩

/-- An integer constant as it is written. -/
structure IntegerConstant where
  signs : List Sign
  radix : Radix
  digits : List (Digit radix)
  nonempty : digits ≠ []

namespace IntegerConstant

/-- The tokens of the constant. -/
def tokens (constant : IntegerConstant) : List Token :=
  constant.signs.map Sign.token ++ (constant.radix.mark ++ constant.digits.map Digit.token)

/-- The number that the constant denotes. -/
def value (constant : IntegerConstant) : Int :=
  (-1) ^ constant.signs.countP Sign.negates * min (Digit.number constant.digits : Int) maxNumber

end IntegerConstant

namespace Engine

variable {scopes : Scopes} {radix : Radix} {engine : Engine} {interpreter : Interpreter}
  {tokens behind : List Token} {token : Token}

/-- The tokens with which a constant ends: none, a character that is no digit, or a command
that cannot be expanded. -/
inductive Ends (scopes : Scopes) (radix : Radix) : List Token → Prop where
  | input : Ends scopes radix []
  | character {token : Token} {rest : List Token} (isCharacter : token.isControl = false)
      (noDigit : ¬radix.IsDigit token) : Ends scopes radix (token :: rest)
  | command {token : Token} {rest : List Token} {command : Command}
      (isControl : token.isControl = true) (noAlias : scopes.alias? token.text = none)
      (bound : scopes.command? token.text = some command)
      (fixed : command.isExpandable = false) : Ends scopes radix (token :: rest)

/-- The tokens without one space in front of them. -/
def pastSpace : List Token → List Token
  | [] => []
  | token :: rest => if token.category = .space then rest else token :: rest

/-! ## Digits -/

theorem isDigit_bare : radix.IsDigit token.bare ↔ radix.IsDigit token := Iff.rfl

theorem digitOf?_bare (base : Nat) (token : Token) :
    digitOf? base token.bare = digitOf? base token := rfl

theorem digitValue?_character (radix : Radix) {digit : Nat} (isBelow : digit < radix.base) :
    digitValue? radix.base (Radix.character digit) = some digit := by
  cases radix <;> revert digit <;> decide

/-- Only the characters of digits have a value. -/
theorem eq_character_of_digitValue? {found : Char} {digit : Nat}
    (isDigit : digitValue? radix.base found = some digit) :
    digit < radix.base ∧ found = Radix.character digit := by
  rw [digitValue?, Option.filter_eq_some_iff, decide_eq_true_eq] at isDigit
  obtain ⟨hasValue, isBelow⟩ := isDigit
  refine ⟨isBelow, ?_⟩
  have numerals : ∀ value < 10, Radix.character value = Char.ofNat (value + 48) := by decide
  have capitals : ∀ value < 16, 10 ≤ value →
      Radix.character value = Char.ofNat (value + 55) := by decide
  split at hasValue
  · next isNumeral =>
      cases hasValue
      obtain ⟨least, greatest⟩ := Char.isDigit_iff_toNat.mp isNumeral
      have atLeast : 48 ≤ found.toNat := least
      have atMost : found.toNat ≤ 57 := greatest
      rw [numerals _ (by omega), Nat.sub_add_cancel atLeast, Char.ofNat_toNat]
  split at hasValue
  · next isCapital =>
      cases hasValue
      obtain ⟨-, least, greatest⟩ := isCapital
      have atLeast : 65 ≤ found.toNat := least
      have atMost : found.toNat ≤ 70 := greatest
      rw [capitals _ (by omega) (by omega), Nat.sub_add_cancel (by omega), Char.ofNat_toNat]
  · cases hasValue

theorem digitOf?_digit (digit : Digit radix) :
    digitOf? radix.base digit.token = some digit.value := by
  have isCharacter : digit.token.category = .other ∨ digit.token.category = .letter :=
    digit.isProper.imp_right And.left
  have isText : digit.token.text.toList = [Radix.character digit.value] :=
    String.toList_singleton _
  rw [digitOf?, if_pos isCharacter]
  simp only [isText]
  exact digitValue?_character radix digit.isBelow

theorem digitOf?_eq_none (noDigit : ¬radix.IsDigit token) :
    digitOf? radix.base token = none := by
  rw [← Option.not_isSome_iff_eq_none, Option.isSome_iff_exists]
  rintro ⟨digit, isDigit⟩
  unfold digitOf? at isDigit
  split at isDigit
  · next isCharacter =>
      split at isDigit
      · next found isText =>
          obtain ⟨isBelow, rfl⟩ := eq_character_of_digitValue? isDigit
          refine noDigit ⟨isCharacter, digit, isBelow, ?_⟩
          rw [← String.toList_inj, isText, String.toList_singleton]
      · cases isDigit
  · cases isDigit

/-! ## The value that is kept -/

/-- The value that is kept of the digits that were read, the last one first. -/
def held (base : Nat) (read : List Nat) : Option Int :=
  if read = [] then none else some (Word.saturate (Nat.ofDigits base read : Nat))

/-- What is not negative is saturated from above only. -/
theorem saturate_of_nonneg {value : Int} (nonneg : 0 ≤ value) :
    Word.saturate value = min value Word.greatest := by
  unfold Word.saturate Word.least Word.greatest
  omega

/-- To saturate in every step is the same as saturating at the end. -/
theorem saturate_step {base : Nat} (isBase : 0 < base) (value digit : Nat) :
    Word.saturate (Word.saturate (Word.saturate value * base) + digit) =
      Word.saturate (digit + base * value : Nat) := by
  have grows : (value : Int) ≤ value * base := by
    exact_mod_cast Nat.le_mul_of_pos_right value isBase
  have lasts : Word.greatest ≤ Word.greatest * base :=
    le_mul_of_one_le_right (by decide) (by exact_mod_cast isBase)
  have positive : 0 ≤ Word.greatest := by decide
  rw [saturate_of_nonneg (Int.natCast_nonneg _), saturate_of_nonneg (Int.natCast_nonneg _)]
  push_cast
  rw [mul_comm (base : Int) value]
  -- Either nothing has been cut off yet, or all that follows stays above the greatest word.
  rcases le_total (value : Int) Word.greatest with isSmall | isGreat
  · rw [min_eq_left isSmall]
    generalize (value : Int) * base = product at grows ⊢
    have isPositive : 0 ≤ product := by omega
    rw [saturate_of_nonneg isPositive, saturate_of_nonneg (by omega)]
    omega
  · rw [min_eq_right isGreat]
    generalize (value : Int) * base = product at grows ⊢
    generalize Word.greatest * (base : Int) = bound at lasts ⊢
    have isPositive : 0 ≤ bound := by omega
    rw [saturate_of_nonneg isPositive, saturate_of_nonneg (by omega)]
    omega

/-- A digit fits into a word. -/
theorem saturate_digit (digit : Digit radix) :
    Word.saturate (Nat.ofDigits radix.base [digit.value] : Nat) = digit.value := by
  have isSmall : digit.value < 16 := digit.isBelow.trans_le (by cases radix <;> decide)
  rw [Nat.ofDigits_singleton]
  exact Word.saturate_of_fits ⟨by unfold Word.least; omega, by unfold Word.greatest; omega⟩

/-- The greatest number is a word, so that saturating makes no difference to the result. -/
theorem signed_saturate (negative : Bool) (number : Nat) :
    signed negative (min (Word.saturate number) maxNumber) =
      (if negative then -1 else 1) * min (number : Int) maxNumber := by
  cases negative <;> unfold signed <;>
    simp only [Bool.false_eq_true, if_true, if_false, Word.saturate, Word.least, Word.greatest,
      maxNumber] <;> omega

/-- The value that is kept with one more digit. -/
theorem held_cons {base : Nat} (isBase : 0 < base) (read : List Nat) (digit : Nat) :
    held base (digit :: read) =
      some (Word.saturate (Word.saturate ((held base read).getD 0 * base) + digit)) := by
  have isHeld : (held base read).getD 0 = Word.saturate (Nat.ofDigits base read : Nat) := by
    cases read with
    | nil => rfl
    | cons first rest => rfl
  rw [isHeld, saturate_step isBase, ← Nat.ofDigits_cons]
  rfl

end Engine

end TexTree
