import Mathlib
import TexTree.Proofs.Engine.Constants
import TexTree.Proofs.Engine.Registers

/-!
# Printed category codes

The category code of a character can be printed as an internal value or as an integer.  Either
way the code of the character is read first, for example from a register.  Internal values take
it as it is; what is no character has the category of ordinary characters.  Integers reduce it
to 32 bits.

Both agree as long as the number is not negative and has at most 32 bits.  Beyond that they
agree only if the reduced number stands for an ordinary character or for none
(`category_code_printed`).
-/

namespace TexTree

/-! ## Codes of numbers -/

/-- The category code of the character with the given number. -/
def CategoryTable.codeOf (table : CategoryTable) (number : Int) : Nat :=
  ((Text.characterOf? number).elim .other table.category).code

theorem Text.characterOf?_eq_none {number : Int} (outside : ¬(0 ≤ number ∧ number < 4294967296)) :
    characterOf? number = none := by
  refine if_neg fun isCode => ?_
  obtain ⟨nonneg, isValid⟩ := isCode
  have isSmall : number.toNat < 1114112 := by
    rcases isValid with low | ⟨-, high⟩
    · omega
    · exact high
  omega

/-- Reducing a number to 32 bits changes its category code unless it has that many bits or the
reduced number is ordinary. -/
theorem CategoryTable.codeOf_emod_eq_iff (table : CategoryTable) (number : Int) :
    table.codeOf (number % 4294967296) = table.codeOf number ↔
      (0 ≤ number ∧ number < 4294967296) ∨
        table.codeOf (number % 4294967296) = Category.other.code := by
  by_cases isInside : 0 ≤ number ∧ number < 4294967296
  · obtain ⟨nonneg, isSmall⟩ := isInside
    rw [Int.emod_eq_of_lt nonneg isSmall]
    exact iff_of_true rfl (.inl ⟨nonneg, isSmall⟩)
  · have isOther : table.codeOf number = Category.other.code := by
      rw [codeOf, Text.characterOf?_eq_none isInside]
      rfl
    rw [isOther, or_iff_right isInside]

/-- A text can be told from its characters as tokens. -/
theorem Token.ofPlainText_injective : Function.Injective ofPlainText := by
  have each : Function.Injective fun character : Char =>
      if character == ' ' then space else other character := by
    intro first second same
    have isText (character : Char) :
        (if character == ' ' then space else other character).text.toList = [character] := by
      by_cases isSpace : character = ' '
      · subst isSpace
        rfl
      · rw [if_neg (by simpa using isSpace)]
        exact String.toList_singleton character
    have sameText := congrArg (fun token : Token => token.text.toList) same
    simp only [isText] at sameText
    exact List.singleton_inj.mp sameText
  intro text text' same
  exact String.toList_inj.mp (List.map_injective_iff.mpr each same)

/-- The digits of a number as tokens. -/
def Token.ofNumber (number : Nat) : List Token := ofPlainText (toString number)

theorem Token.ofNumber_inj {number number' : Nat} :
    ofNumber number = ofNumber number' ↔ number = number' := by
  refine ⟨fun same => ?_, congrArg ofNumber⟩
  exact Nat.repr_injective (ofPlainText_injective same)

namespace Engine

variable {scopes : Scopes} {engine : Engine} {interpreter : Interpreter}
  {behind : List Token} {token : Token} {registers : Table Quantity}

theorem categoryCodeOf_eq (engine : Engine) (number : Int) :
    engine.categoryCodeOf number = engine.scopes.categories.codeOf (number % 4294967296) := by
  rw [categoryCodeOf, CategoryTable.codeOf]
  cases Text.characterOf? (number % 4294967296) <;> rfl

/-! ## Reading behind a command -/

/-- The token is a control sequence with the given meaning. -/
structure Means (scopes : Scopes) (token : Token) (command : Command) : Prop where
  isControl : token.isControl = true
  noAlias : scopes.alias? token.text = none
  bound : scopes.command? token.text = some command

/-- The engine has the given registers and scopes, and the given tokens are ahead. -/
structure FacesWith (registers : Table Quantity) (scopes : Scopes) (tokens : List Token)
    (engine : Engine) : Prop extends Faces scopes tokens engine where
  registers_eq : engine.registers = registers

/-- A command that cannot be expanded is found, and no register is changed. -/
theorem FacesWith.runs_unexpandable (idles : Idles interpreter) (enough : 0 < interpreter.limit)
    (reads : interpreter.Retains fun engine => engine.registers = registers)
    {command : Command} (means : Means scopes token command) (fixed : command.isExpandable = false)
    (faces : FacesWith registers scopes (token :: behind) engine) :
    Runs (unexpandable interpreter) engine fun result after =>
      (∃ found, result = some (found, some command)) ∧ FacesWith registers scopes behind after := by
  obtain ⟨faces, kept⟩ := faces
  obtain ⟨isControl, noAlias, bound⟩ := means
  obtain ⟨result, after, equal, ⟨found, isFound, -⟩, faces⟩ :=
    faces.runs_unexpandable_command idles enough isControl noAlias bound fixed
  have stays := retains_unexpandable reads engine kept
  rw [equal] at stays
  exact ⟨result, after, equal, ⟨found, isFound⟩, faces, stays⟩

/-- The value of a register is read as an integer. -/
theorem FacesWith.runs_integerWithin_register (idles : Idles interpreter)
    (enough : 0 < interpreter.limit)
    (reads : interpreter.Retains fun engine => engine.registers = registers)
    {name : String} {quantity : Quantity} (means : Means scopes token (.register name))
    (value : registers.get? name = some quantity) (steps : Nat)
    (faces : FacesWith registers scopes (token :: behind) engine) :
    Runs (integerWithin interpreter (steps + 1) false) engine fun result after =>
      result = quantity.toInt ∧ FacesWith registers scopes behind after := by
  unfold integerWithin
  refine (faces.runs_unexpandable idles enough reads means rfl).bind ?_
  rintro _ after ⟨⟨found, rfl⟩, faces⟩
  refine runs_get (runs_pure ⟨?_, faces⟩)
  rw [faces.registers_eq, value]
  rfl

/-- The category code behind a register is reduced to 32 bits when it is read as an integer. -/
theorem FacesWith.runs_readInteger_categoryCode (idles : Idles interpreter)
    (enough : 1 < interpreter.limit)
    (reads : interpreter.Retains fun engine => engine.registers = registers)
    {code register : Token} {name : String} {quantity : Quantity}
    (isCode : Means scopes code (.primitive "catcode" (.action .categoryCode)))
    (isRegister : Means scopes register (.register name))
    (value : registers.get? name = some quantity)
    (faces : FacesWith registers scopes (code :: register :: behind) engine) :
    Runs (readInteger interpreter) engine fun result after =>
      result = scopes.categories.codeOf (quantity.toInt % 4294967296) ∧
        FacesWith registers scopes behind after := by
  obtain ⟨steps, isLimit⟩ := Nat.exists_eq_add_of_lt enough
  have positive : 0 < interpreter.limit := Nat.zero_lt_of_lt enough
  rw [readInteger, isLimit, Nat.add_comm 1 steps]
  unfold integerWithin
  refine (faces.runs_unexpandable idles positive reads isCode rfl).bind ?_
  rintro _ after ⟨⟨found, rfl⟩, faces⟩
  simp only [Command.primitiveName?, if_true]
  refine (faces.runs_integerWithin_register idles positive reads isRegister value steps).bind ?_
  rintro _ after ⟨rfl, faces⟩
  refine runs_get (runs_pure ⟨?_, faces⟩)
  rw [categoryCodeOf_eq, faces.scopes_eq]
  rfl

/-- The category code behind a register is that of its value when it is an internal value. -/
theorem FacesWith.runs_internalValue_categoryCode (idles : Idles interpreter)
    (enough : 0 < interpreter.limit)
    (reads : interpreter.Retains fun engine => engine.registers = registers)
    {code register : Token} {name : String} {quantity : Quantity}
    (isCode : Means scopes code (.primitive "catcode" (.action .categoryCode)))
    (isRegister : Means scopes register (.register name))
    (value : registers.get? name = some quantity)
    (faces : FacesWith registers scopes (code :: register :: behind) engine) :
    Runs (internalValue interpreter) engine fun result after =>
      result = some (toString (scopes.categories.codeOf quantity.toInt)) ∧
        FacesWith registers scopes behind after := by
  obtain ⟨steps, isLimit⟩ := Nat.exists_eq_add_one.mpr enough
  unfold internalValue
  refine (faces.runs_unexpandable idles enough reads isCode rfl).bind ?_
  rintro _ after ⟨⟨found, rfl⟩, faces⟩
  simp only [Option.bind_some, Command.primitiveName?, if_true, readInteger, isLimit]
  refine (faces.runs_integerWithin_register idles enough reads isRegister value steps).bind ?_
  rintro _ after ⟨rfl, faces⟩
  refine runs_get (runs_pure ⟨?_, faces⟩)
  rw [faces.scopes_eq]
  rfl

/-! ## Printing -/

/-- A category code is printed as an internal value with the number in the register, and as an
integer with this number reduced to 32 bits.  What is printed is the same if nothing has to be
reduced or the reduced number is ordinary, and only then. -/
theorem category_code_printed (fuel : Nat) (enough : 1 < fuel) (engine : Engine)
    (value printed : Token) {code register : Token} {behind : List Token} {name : String}
    {number : Int}
    (isCode : Means engine.scopes code (.primitive "catcode" (.action .categoryCode)))
    (isRegister : Means engine.scopes register (.register name))
    (count : engine.registers.get? name = some (.count number))
    (ahead : engine.input.ahead engine.scopes.categories =
      (code :: register :: behind).map Token.bare) :
    let codeOf := engine.scopes.categories.codeOf
    let Leaves := FacesWith engine.registers engine.scopes behind
    Runs (expansionOf (Engine.interpreter fuel) value .internalValue) engine (fun result after =>
        result = Token.ofNumber (codeOf number) ∧ Leaves after) ∧
      Runs (expansionOf (Engine.interpreter fuel) printed .integer) engine (fun result after =>
        result = Token.ofNumber (codeOf (number % 4294967296)) ∧ Leaves after) ∧
      (Token.ofNumber (codeOf (number % 4294967296)) = Token.ofNumber (codeOf number) ↔
        (0 ≤ number ∧ number < 4294967296) ∨
          codeOf (number % 4294967296) = Category.other.code) := by
  intro codeOf Leaves
  obtain ⟨less, rfl⟩ := Nat.exists_eq_add_one.mpr (Nat.zero_lt_of_lt enough)
  have idles := idles_interpreter less
  have reads : (Engine.interpreter (less + 1)).Retains fun other =>
      other.registers = engine.registers := retains_interpreter _ _
  have faces : FacesWith engine.registers engine.scopes (code :: register :: behind) engine :=
    ⟨⟨rfl, ahead⟩, rfl⟩
  refine ⟨?_, ?_, ?_⟩
  · have positive : 0 < (Engine.interpreter (less + 1)).limit := Nat.succ_pos less
    refine (faces.runs_internalValue_categoryCode idles positive reads isCode isRegister
      count).bind ?_
    rintro _ after ⟨rfl, faces⟩
    exact runs_pure ⟨rfl, faces⟩
  · refine (faces.runs_readInteger_categoryCode idles enough reads isCode isRegister count).bind ?_
    rintro _ after ⟨rfl, faces⟩
    exact runs_pure ⟨rfl, faces⟩
  · rw [Token.ofNumber_inj]
    exact engine.scopes.categories.codeOf_emod_eq_iff number

/-- The number of the letter `A` with one more bit above the lower 32 is no character, and is
printed as the category code of this letter nevertheless. -/
theorem category_code_printed_wide :
    let allocated :=
      { (default : Engine) with
        input := .empty
        scopes := Scopes.initial.setCommand "catcode" (.primitive "catcode" (.action .categoryCode))
          true }.createRegister "n" (.count 4294967361)
    let engine := allocated.facing [.control "catcode", .control "n"]
    let prints (expansion : Expansion) (tokens : List Token) :=
      Runs (expansionOf (Engine.interpreter 2) default expansion) engine fun result _ =>
        result = tokens
    prints .internalValue [.other '1', .other '2'] ∧ prints .integer [.other '1', .other '1'] := by
  intro allocated engine prints
  have isCode : Means engine.scopes (.control "catcode")
      (.primitive "catcode" (.action .categoryCode)) := ⟨rfl, rfl, rfl⟩
  have isRegister : Means engine.scopes (.control "n") (.register "n") := ⟨rfl, rfl, rfl⟩
  have count : engine.registers.get? "n" = some (.count 4294967361) := rfl
  have codes : engine.scopes.categories.codeOf 4294967361 = 12 ∧
      engine.scopes.categories.codeOf (4294967361 % 4294967296) = 11 := by decide +kernel
  have ahead : engine.input.ahead engine.scopes.categories =
      [Token.control "catcode", Token.control "n"].map Token.bare := by
    have noInput : allocated.input.ahead engine.scopes.categories = [] := Input.ahead_empty
    rw [show engine.input = allocated.input.pushTokens [.control "catcode", .control "n"] from rfl,
      Input.ahead_pushTokens, noInput, List.append_nil]
  obtain ⟨isValue, isInteger, -⟩ := category_code_printed 2 (by decide) engine default default
    isCode isRegister count ahead
  refine ⟨isValue.mono ?_, isInteger.mono ?_⟩
  · rintro _ _ ⟨rfl, -⟩
    rw [codes.1]
    rfl
  · rintro _ _ ⟨rfl, -⟩
    rw [codes.2]
    rfl

end Engine

end TexTree
