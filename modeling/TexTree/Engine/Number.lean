import TexTree.Decimal.Reading
import TexTree.Engine.Expansion

/-!
# Numbers, dimensions and glue

Quantities are read with expansion.  Malformed ones are no faults: a missing
number is taken for zero and a missing unit for points, with a report.
-/

namespace TexTree

/-- The character with a code. -/
def Text.characterOf? (code : Int) : Option Char :=
  if 0 ≤ code ∧ code.toNat.isValidChar then some (Char.ofNat code.toNat) else none

namespace Engine

/-- The value of a digit in a base.  Hexadecimal digits are capitals. -/
def digitValue? (base : Nat) (digit : Char) : Option Nat :=
  let value? : Option Nat :=
    if digit.isDigit then some (digit.toNat - 48)
    else if base = 16 ∧ 'A' ≤ digit ∧ digit ≤ 'F' then some (digit.toNat - 55)
    else none
  value?.filter (· < base)

/-- The value of a token that is a digit. -/
def digitOf? (base : Nat) (token : Token) : Option Nat :=
  if token.category = .other ∨ token.category = .letter then
    match token.text.toList with
    | [digit] => digitValue? base digit
    | _ => none
  else none

/-- Report that a number is missing.  What was found in its place is put back. -/
def missingNumber (found : Option Token) : TexM Unit := do
  match found with
  | none => warn "numbers" "Missing number, treated as zero"
  | some token =>
      warn "numbers" ("Missing number, treated as zero (found " ++ token.display ++ ")")
      putBack token

/-- A number with its sign. -/
def signed (negative : Bool) (value : Int) : Int :=
  if negative then Word.saturate (-value) else value

/-- A number with its sign. -/
def signedFloat (negative : Bool) (value : Float) : Float := if negative then -value else value

/-- Read digits in a base, after digits with the given value if there were any,
and one space behind them. -/
def digitsWithin (interpreter : Interpreter) (base : Nat) :
    Nat → Option Int → TexM (Option Int)
  | 0, _ => fail .outOfFuel
  | steps + 1, value => do
      match ← unexpandable interpreter with
      | none => return value
      | some (token, command) =>
          match command, digitOf? base token with
          | none, some digit =>
              let shifted := Word.saturate (value.getD 0 * base)
              digitsWithin interpreter base steps (some (Word.saturate (shifted + digit)))
          | _, _ =>
              if !(command.isNone && token.category = .space) then putBack token
              return value

/-- The integer with the given digits, the first of which may have been read. -/
def readDigits (interpreter : Interpreter) (base : Nat) (first : Option Nat)
    (negative : Bool) : TexM Int := do
  let digits ← digitsWithin interpreter base interpreter.limit (first.map Int.ofNat)
  if digits.isNone then warn "numbers" "Missing digits after radix prefix"
  let value := digits.getD 0
  if value > maxNumber then
    warn "numbers"
      ("Number too big: " ++ toString value ++ " replaced by " ++ toString maxNumber)
  return signed negative (min value maxNumber)

/-- The code of the character that a token stands for. -/
def alphabeticConstant (token : Token) : TexM Nat := do
  if token.isControl then
    match (token.activeChar?.getD token.text).toList with
    | [character] => return character.toNat
    | _ =>
        warn "numbers" ("Improper alphabetic constant \\" ++ token.text)
        return '0'.toNat
  else return (token.char?.getD '0').toNat

/-- The category code of the character whose code is the given number, reduced to
32 bits. -/
def categoryCodeOf (engine : Engine) (number : Int) : Nat :=
  match Text.characterOf? (number % 4294967296) with
  | some character => (engine.scopes.categories.category character).code
  | none => Category.other.code

/-- Read an integer behind the signs that were read, in at most so many steps. -/
def integerWithin (interpreter : Interpreter) : Nat → Bool → TexM Int
  | 0, _ => fail .outOfFuel
  | steps + 1, negative => do
      match ← unexpandable interpreter with
      | none =>
          missingNumber none
          return 0
      | some (_, some (.register name)) =>
          return signed negative (((← get).registers.get? name).elim 0 Quantity.toInt)
      | some (_, some (.character value)) | some (_, some (.mathCharacter value)) =>
          return signed negative value.toNat
      | some (token, some command) =>
          if command.primitiveName? = some "catcode" then
            let number ← integerWithin interpreter steps false
            return signed negative ((← get).categoryCodeOf number)
          else
            missingNumber (some token)
            return 0
      | some (token, none) =>
          match token.category with
          | .space => integerWithin interpreter steps negative
          | .other =>
              match token.text with
              | "-" => integerWithin interpreter steps !negative
              | "+" => integerWithin interpreter steps negative
              | "'" => readDigits interpreter 8 none negative
              | "\"" => readDigits interpreter 16 none negative
              | "`" =>
                  match ← nextRaw with
                  | none => fail .inputEnded
                  | some found =>
                      let code ← alphabeticConstant found
                      skipOneSpace interpreter
                      return signed negative code
              | _ =>
                  match digitOf? 10 token with
                  | some digit => readDigits interpreter 10 (some digit) negative
                  | none =>
                      missingNumber (some token)
                      return 0
          | _ =>
              missingNumber (some token)
              return 0

/-- Read an integer: signs, and a constant in base ten, eight or sixteen, the code
of a character, or an internal value. -/
def readInteger (interpreter : Interpreter) : TexM Int :=
  integerWithin interpreter interpreter.limit false

/-- Whether a token is a decimal point. -/
def isPoint (token : Token) : Bool := token.text == "." || token.text == ","

/-- Read the rest of a decimal, whose first characters are given in reverse, and
one space behind it. -/
def decimalWithin (interpreter : Interpreter) : Nat → List Char → TexM Float
  | 0, _ => fail .outOfFuel
  | steps + 1, read => do
      match ← unexpandable interpreter with
      | none => return (Decimal.read? read.reverse).getD 0.0
      | some (token, command) =>
          if command.isNone && token.category = .other && (digitOf? 10 token).isSome then
            decimalWithin interpreter steps (token.text.toList ++ read)
          else if command.isNone && token.category = .other && isPoint token &&
              !read.contains '.' then
            decimalWithin interpreter steps ('.' :: read)
          else
            if !(command.isNone && token.category = .space) then putBack token
            return (Decimal.read? read.reverse).getD 0.0

/-- Whether a token starts a decimal. -/
def startsDecimal (token : Token) : Bool :=
  token.category = .other && (isPoint token || (digitOf? 10 token).isSome)

/-- Read a decimal that starts with the given token. -/
def readDecimal (interpreter : Interpreter) (first : Token) : TexM Float :=
  decimalWithin interpreter interpreter.limit
    (if isPoint first then ['.'] else first.text.toList)

/-- Read a decimal number behind the signs that were read. -/
def floatWithin (interpreter : Interpreter) : Nat → Bool → TexM Float
  | 0, _ => fail .outOfFuel
  | steps + 1, negative => do
      match ← unexpandable interpreter with
      | none =>
          missingNumber none
          return 0.0
      | some (_, some (.register name)) =>
          let value := ((← get).registers.get? name).elim 0 Quantity.toInt
          return signedFloat negative (Word.toFloat value)
      | some (token, some _) =>
          missingNumber (some token)
          return 0.0
      | some (token, none) =>
          if token.category = .space then floatWithin interpreter steps negative
          else if token.category = .other && token.text == "-" then
            floatWithin interpreter steps !negative
          else if token.category = .other && token.text == "+" then
            floatWithin interpreter steps negative
          else if startsDecimal token then
            return signedFloat negative (← readDecimal interpreter token)
          else
            missingNumber (some token)
            return 0.0

/-- Read a decimal number. -/
def readFloat (interpreter : Interpreter) : TexM Float :=
  floatWithin interpreter interpreter.limit false

/-- What stands before the unit of a dimension: a number, or an internal dimension
that needs no unit. -/
inductive Factor where
  | number (value : Float)
  | dimension (length : Dimension)

/-- A dimension with its sign. -/
def signedDimension (negative : Bool) (length : Dimension) : Dimension :=
  if negative then length.neg else length

/-- The factor that a register stands for. -/
def factorOf (negative : Bool) : Option Quantity → Factor
  | none => .number 0.0
  | some (.count value) => .number (signedFloat negative (Word.toFloat value))
  | some (.dimen length) => .dimension (signedDimension negative length)
  | some (.skip glue) | some (.muskip glue) => .dimension (signedDimension negative glue.base)

/-- Read a factor behind the signs that were read. -/
def factorWithin (interpreter : Interpreter) : Nat → Bool → TexM Factor
  | 0, _ => fail .outOfFuel
  | steps + 1, negative => do
      match ← unexpandable interpreter with
      | none =>
          missingNumber none
          return .number 0.0
      | some (_, some (.register name)) =>
          return factorOf negative ((← get).registers.get? name)
      | some (_, some (.character value)) | some (_, some (.mathCharacter value)) =>
          return .number (signedFloat negative (Word.toFloat value.toNat))
      | some (token, some command) =>
          if command.primitiveName? = some "catcode" then
            putBack token
            return .number (signedFloat negative (Word.toFloat (← readInteger interpreter)))
          else
            missingNumber (some token)
            return .number 0.0
      | some (token, none) =>
          if token.category = .space then factorWithin interpreter steps negative
          else if token.category = .other && token.text == "-" then
            factorWithin interpreter steps !negative
          else if token.category = .other && token.text == "+" then
            factorWithin interpreter steps negative
          else if token.category = .other && ["'", "\"", "`"].contains token.text then
            putBack token
            return .number (signedFloat negative (Word.toFloat (← readInteger interpreter)))
          else if startsDecimal token then
            return .number (signedFloat negative (← readDecimal interpreter token))
          else
            missingNumber (some token)
            return .number 0.0

/-- Read the factor of a dimension. -/
def readFactor (interpreter : Interpreter) : TexM Factor :=
  factorWithin interpreter interpreter.limit false

/-- Read the first of the given units that follows. -/
def readNamedUnit (interpreter : Interpreter) : List String → TexM (Option String)
  | [] => return none
  | unit :: rest => do
      if ← readKeyword interpreter unit then return some unit
      else readNamedUnit interpreter rest

/-- Read a register of lengths as a unit. -/
def readRegisterUnit (interpreter : Interpreter) : TexM (Option Dimension) := do
  match ← unexpandable interpreter with
  | none => return none
  | some (token, command) =>
      let quantity? ← match command with
        | some (.register name) => pure ((← get).registers.get? name)
        | _ => pure none
      match quantity? with
      | some (.dimen length) => return some length
      | some (.skip glue) => return some glue.base
      | _ =>
          putBack token
          return none

/-- Read the unit of a dimension with the given factor.  `inMath` asks for the
unit of formulas. -/
def readUnit (interpreter : Interpreter) (factor : Float) (inMath : Bool) : TexM Dimension := do
  if inMath then
    if !(← readKeyword interpreter "mu") then
      warn "numbers" "Illegal unit of measure (mu inserted)"
    return .scaled factor Dimension.perPoint
  else
    let _ ← readKeyword interpreter "true"
    match ← readNamedUnit interpreter Dimension.units with
    | some unit => return (Dimension.ofUnit? factor unit).getD ⟨0⟩
    | none =>
        match ← readRegisterUnit interpreter with
        | some length => return .scaled factor (Word.toFloat length.scaledPoints)
        | none =>
            warn "numbers" "Illegal unit of measure (pt inserted)"
            return .scaled factor Dimension.perPoint

/-- Read a dimension, of formulas or of text. -/
def readDimensionIn (interpreter : Interpreter) (inMath : Bool) : TexM Dimension := do
  match ← readFactor interpreter with
  | .dimension length => return length
  | .number factor => readUnit interpreter factor inMath

/-- Read a dimension. -/
def readDimension (interpreter : Interpreter) : TexM Dimension :=
  readDimensionIn interpreter false

/-- Read the order of infinity of a stretch or shrink component. -/
def readOrder (interpreter : Interpreter) : List (Nat × String) → TexM (Option Nat)
  | [] => return none
  | (order, keyword) :: rest => do
      if ← readKeyword interpreter keyword then return some order
      else readOrder interpreter rest

/-- Read a stretch or shrink component. -/
def readFill (interpreter : Interpreter) (inMath : Bool) : TexM Fill := do
  match ← readFactor interpreter with
  | .dimension length => return .finite length
  | .number factor =>
      match ← readOrder interpreter [(3, "filll"), (2, "fill"), (1, "fil")] with
      | some order =>
          return .infinite order (Dimension.scaled factor Dimension.perPoint).scaledPoints
      | none => return .finite (← readUnit interpreter factor inMath)

/-- Read a register of glue of the wanted kind. -/
def readRegisterGlue (interpreter : Interpreter) (inMath : Bool) : TexM (Option Glue) := do
  match ← unexpandable interpreter with
  | none => return none
  | some (token, command) =>
      let quantity? ← match command with
        | some (.register name) => pure ((← get).registers.get? name)
        | _ => pure none
      match quantity?, inMath with
      | some (.skip glue), false => return some glue
      | some (.muskip glue), true => return some glue
      | _, _ =>
          putBack token
          return none

/-- Read a component behind its keyword, if there is one. -/
def readComponent (interpreter : Interpreter) (keyword : String) (inMath : Bool) :
    TexM Fill := do
  if ← readKeyword interpreter keyword then readFill interpreter inMath
  else return .none

/-- Read glue, of formulas or of text. -/
def readGlue (interpreter : Interpreter) (inMath : Bool) : TexM Glue := do
  skipSpacesExpanded interpreter
  match ← readRegisterGlue interpreter inMath with
  | some glue => return glue
  | none =>
      let base ← readDimensionIn interpreter inMath
      let stretch ← readComponent interpreter "plus" inMath
      let shrink ← readComponent interpreter "minus" inMath
      return ⟨base, stretch, shrink⟩

/-- Read a quantity of the same kind as another one. -/
def readQuantity (interpreter : Interpreter) : Quantity → TexM Quantity
  | .count _ => return .count (← readInteger interpreter)
  | .dimen _ => return .dimen (← readDimension interpreter)
  | .skip _ => return .skip (← readGlue interpreter false)
  | .muskip _ => return .muskip (← readGlue interpreter true)

end Engine

end TexTree
