import TexTree.Proofs.Engine.FullExpansion
import TexTree.Proofs.Quantity.Arithmetic

/-!
# Arithmetic on registers

A command for arithmetic first reads what is to be done: the register, whose value is taken at
once, the word `by`, and the operand (`readOperation`).  Reading expands what it finds, but
changes no register.  Only when everything has been read is the result stored, so that nothing
is changed if anything fails before that, nor if the result does not fit into words
(`arithmetic_exact`).

What is done depends on the text of the token, even if its command has got another name: any
name but `advance` and `multiply` divides.
-/

namespace TexTree

namespace Engine

variable {interpreter : Interpreter} {engine after : Engine} {token : Token} {name : String}
  {old : Quantity} {fuel : Nat}

/-- What is to be done to a register. -/
inductive Operation where
  | advance (amount : Quantity)
  | multiply (factor : Int)
  | divide (divisor : Int)
  deriving DecidableEq, Repr

namespace Operation

/-- The result of the operation on the value of a named register, or what is wrong with it. -/
def outcome (name : String) (old : Quantity) : Operation → Except Fault Quantity
  | .advance amount => .ok (old.add amount)
  | .multiply factor =>
      match old.multiply? factor with
      | some value => .ok value
      | none => .error (.productOverflow name factor)
  | .divide divisor =>
      if divisor = 0 then .error (.divisionByZero name)
      else
        match old.divide? divisor with
        | some value => .ok value
        | none => .error (.quotientOverflow name divisor)

/-- What is added is of the same kind. -/
def Suits (old : Quantity) : Operation → Prop
  | .advance amount => amount.SameKind old
  | _ => True

/-- There is no result: a component of it does not fit into a word, or the divisor is zero. -/
def Overflows (old : Quantity) : Operation → Prop
  | .advance _ => False
  | .multiply factor => ∃ value ∈ old.components, ¬Word.Fits (value * factor)
  | .divide divisor => divisor = 0 ∨ ∃ value ∈ old.components, ¬Word.Fits (value.tdiv divisor)

/-- What the result has to be. -/
def Gives (old : Quantity) : Operation → Quantity → Prop
  | .advance amount, result => amount.SameKind old ∧ old.IsSum amount result
  | .multiply factor, result => result = old.map (· * factor)
  | .divide divisor, result => result = old.map (·.tdiv divisor)

theorem outcome_of_overflows {operation : Operation} (overflows : operation.Overflows old)
    (name : String) : ∃ fault, operation.outcome name old = .error fault ∧ fault.kind = .other := by
  cases operation with
  | advance amount => exact overflows.elim
  | multiply factor =>
      have notAll : ¬∀ value ∈ old.components, Word.Fits (value * factor) := by
        simpa [Overflows] using overflows
      refine ⟨.productOverflow name factor, ?_, rfl⟩
      rw [outcome, old.multiply?_eq, if_neg notAll]
  | divide divisor =>
      by_cases isZero : divisor = 0
      · exact ⟨.divisionByZero name, if_pos isZero, rfl⟩
      have notAll : ¬∀ value ∈ old.components, Word.Fits (value.tdiv divisor) := by
        simpa [Overflows, isZero] using overflows
      refine ⟨.quotientOverflow name divisor, ?_, rfl⟩
      rw [outcome, if_neg isZero, old.divide?_eq isZero, if_neg notAll]

theorem outcome_of_not_overflows {operation : Operation} (suits : operation.Suits old)
    (noOverflow : ¬operation.Overflows old) (name : String) :
    ∃ result, operation.outcome name old = .ok result ∧ operation.Gives old result := by
  cases operation with
  | advance amount => exact ⟨_, rfl, suits, Quantity.isSum_add suits⟩
  | multiply factor =>
      have all : ∀ value ∈ old.components, Word.Fits (value * factor) := by
        simpa [Overflows] using noOverflow
      refine ⟨_, ?_, rfl⟩
      rw [outcome, old.multiply?_eq, if_pos all]
  | divide divisor =>
      obtain ⟨nonzero, all⟩ :
          divisor ≠ 0 ∧ ∀ value ∈ old.components, Word.Fits (value.tdiv divisor) := by
        simpa [Overflows] using noOverflow
      refine ⟨_, ?_, rfl⟩
      rw [outcome, if_neg nonzero, old.divide?_eq nonzero, if_pos all]

end Operation

/-! ## What is read -/

/-- Read what is to be done to a register with the given value. -/
def readOperand (interpreter : Interpreter) (command : String) (old : Quantity) :
    TexM Operation :=
  match command with
  | "advance" => return .advance (← readQuantity interpreter old)
  | "multiply" => return .multiply (← readInteger interpreter)
  | _ => return .divide (← readInteger interpreter)

/-- Read the register, with its value, and what is to be done to it. -/
def readOperation (interpreter : Interpreter) (token : Token) :
    TexM (String × Quantity × Operation) := do
  let _ ← takeGlobal
  let (name, old) ← readRegister interpreter token.text
  let _ ← readKeyword interpreter "by"
  return (name, old, ← readOperand interpreter token.text old)

/-- The outcome of a computation. -/
def returning {α : Type} : Except Fault α → TexM α
  | .ok value => return value
  | .error fault => fail fault

theorem arithmeticResult_eq (interpreter : Interpreter) (token : Token) (name : String)
    (old : Quantity) :
    arithmeticResult interpreter token name old = (do
      let operation ← readOperand interpreter token.text old
      returning (operation.outcome name old)) := by
  unfold arithmeticResult readOperand
  generalize token.text = command
  split
  · simp only [bind_assoc, pure_bind, Operation.outcome, returning]
  · simp only [bind_assoc, pure_bind, Operation.outcome]
    refine bind_congr fun factor => ?_
    cases old.multiply? factor <;> rfl
  · simp only [bind_assoc, pure_bind, Operation.outcome]
    refine bind_congr fun divisor => ?_
    split
    · rfl
    · cases old.divide? divisor <;> rfl

/-- The result is only stored behind everything that is read. -/
theorem doArithmetic_eq (interpreter : Interpreter) (token : Token) :
    doArithmetic interpreter token = (do
      let (name, old, operation) ← readOperation interpreter token
      let result ← returning (operation.outcome name old)
      modify fun engine => engine.setRegister name result) := by
  simp only [doArithmetic, readOperation, arithmeticResult_eq, bind_assoc, pure_bind]

/-- What is read suits the register. -/
theorem suits_of_readOperand {command : String} {operation : Operation}
    (isRead : readOperand interpreter command old engine = .ok operation after) :
    operation.Suits old := by
  unfold readOperand at isRead
  split at isRead
  · obtain ⟨amount, middle, isAmount, last⟩ := ok_of_bind isRead
    cases last
    cases old <;> obtain ⟨_, _, _, last⟩ := ok_of_bind isAmount <;> cases last <;> trivial
  all_goals
    obtain ⟨_, _, _, last⟩ := ok_of_bind isRead
    cases last
    trivial

/-! ## What has been read -/

instance (registers : Table Quantity) :
    Unaffected fun engine : Engine => engine.registers = registers :=
  ⟨fun _ kept => kept, fun _ kept => kept, fun _ kept => kept, fun kept _ _ => kept⟩

section Reads

variable {registers : Table Quantity}
  (reads : interpreter.Retains fun engine => engine.registers = registers)

include reads

theorem retains_readOperation (token : Token) :
    Retains (fun engine => engine.registers = registers) (readOperation interpreter token) := by
  have taken : Retains (fun engine => engine.registers = registers) takeGlobal :=
    fun _ kept => kept
  have operand : ∀ old, Retains (fun engine => engine.registers = registers)
      (readOperand interpreter token.text old) := by
    intro old
    unfold readOperand
    split <;> grind
  refine taken.bind fun _ => (retains_readRegister reads _).bind fun _ =>
    (retains_readKeyword reads "by").bind fun _ => (operand _).bind fun _ => retains_pure _

/-- The register that is read has the given value. -/
theorem get?_of_readRegister {command : String} (before : engine.registers = registers)
    (isRead : readRegister interpreter command engine = .ok (name, old) after) :
    registers.get? name = some old := by
  obtain ⟨next, middle, isNext, last⟩ := ok_of_bind isRead
  have same : middle.registers = registers := by
    have kept := retains_unexpandable reads engine before
    rwa [isNext] at kept
  split at last
  · cases last
  · next found =>
      simp only [Bind.bind, EStateM.bind, get_run, same] at last
      cases isFound : registers.get? found with
      | some value =>
          rw [isFound] at last
          cases last
          exact isFound
      | none =>
          rw [isFound] at last
          cases last
  · cases last

end Reads

/-- The value that is read is that of the register, and the operand suits it. -/
theorem readOperation_ok
    (reads : ∀ registers, interpreter.Retains fun engine => engine.registers = registers)
    {operation : Operation}
    (isRead : readOperation interpreter token engine = .ok (name, old, operation) after) :
    engine.registers.get? name = some old ∧ operation.Suits old := by
  obtain ⟨_, first, taken, rest⟩ := ok_of_bind isRead
  obtain ⟨⟨found, value⟩, second, isRegister, rest⟩ := ok_of_bind rest
  obtain ⟨_, third, _, rest⟩ := ok_of_bind rest
  obtain ⟨operand, last, isOperand, rest⟩ := ok_of_bind rest
  cases rest
  have same : first.registers = engine.registers := by
    cases taken
    rfl
  exact ⟨get?_of_readRegister (reads _) same isRegister, suits_of_readOperand isOperand⟩

/-- Arithmetic on a register either stores an exact result, or, if this does not fit into words,
fails and leaves all registers alone; so it does if what is to be done cannot be read. -/
theorem arithmetic_exact (fuel : Nat) (engine : Engine) (token : Token) :
    match readOperation (Engine.interpreter fuel) token engine with
    | .error error after =>
        doArithmetic (Engine.interpreter fuel) token engine = .error error after ∧
          after.registers = engine.registers
    | .ok (name, old, operation) after =>
        engine.registers.get? name = some old ∧ after.registers = engine.registers ∧
          (operation.Overflows old → ∃ fault : Fault, fault.kind = .other ∧
            doArithmetic (Engine.interpreter fuel) token engine = .error { fault } after) ∧
          (¬operation.Overflows old → ∃ result, operation.Gives old result ∧
            doArithmetic (Engine.interpreter fuel) token engine =
              .ok () { after with registers := engine.registers.insert name result }) := by
  have reads : ∀ registers, (Engine.interpreter fuel).Retains fun engine =>
      engine.registers = registers := fun registers => retains_interpreter _ fuel
  have kept := retains_readOperation (reads engine.registers) token engine rfl
  rw [doArithmetic_eq]
  simp only [Bind.bind, EStateM.bind]
  cases isRead : readOperation (Engine.interpreter fuel) token engine with
  | error error after =>
      rw [isRead] at kept
      exact ⟨rfl, kept⟩
  | ok read after =>
      obtain ⟨name, old, operation⟩ := read
      rw [isRead] at kept
      replace kept : after.registers = engine.registers := kept
      obtain ⟨isValue, suits⟩ := readOperation_ok reads isRead
      refine ⟨isValue, kept, fun overflows => ?_, fun noOverflow => ?_⟩
      · obtain ⟨fault, isOutcome, isOther⟩ := operation.outcome_of_overflows overflows name
        refine ⟨fault, isOther, ?_⟩
        simp only [isOutcome]
        rfl
      · obtain ⟨result, isOutcome, gives⟩ :=
          operation.outcome_of_not_overflows suits noOverflow name
        refine ⟨result, gives, ?_⟩
        -- The register that was read is still there.
        have contained : after.registers.contains name = true := by
          rw [kept, Table.contains, isValue]
          rfl
        simp only [isOutcome]
        change EStateM.Result.ok () (after.setRegister name result) = _
        rw [setRegister, if_pos contained, kept]

/-- Only the shrink component of glue is too large for a product; its quotient is exact. -/
theorem arithmetic_exact_shrink :
    let glue : Quantity := .skip ⟨⟨-5⟩, .infinite 2 3, .finite ⟨4611686018427387904⟩⟩
    let allocated := (fresh {} default ⟨2021, 3, 4⟩ .empty).createRegister "r" glue
    let perform (command arguments : String) :=
      doArithmetic (Engine.interpreter 20) (.control command)
        { allocated with input := Input.empty.pushText arguments "" }
    (∃ fault after, fault.kind = .other ∧
      perform "multiply" "\\r by 2 " = .error { fault } after ∧
      after.registers = allocated.registers) ∧
    ∃ after, perform "divide" "\\r by -2 " = .ok () after ∧
      after.registers = allocated.registers.insert "r"
        (.skip ⟨⟨2⟩, .infinite 2 (-1), .finite ⟨-2305843009213693952⟩⟩) := by
  rw [fresh, Builtin.scopes_eq]
  intro glue allocated perform
  let given (arguments : String) :=
    { allocated with input := Input.empty.pushText arguments "" }
  have facts : (value? (readOperation (Engine.interpreter 20) (.control "multiply")
      (given "\\r by 2 ")), value? (readOperation (Engine.interpreter 20) (.control "divide")
      (given "\\r by -2 "))) =
        (some ("r", glue, .multiply 2), some ("r", glue, .divide (-2))) := by
    decide +kernel
  obtain ⟨isProduct, isQuotient⟩ := Prod.mk.inj facts
  have multiplies := arithmetic_exact 20 (given "\\r by 2 ") (.control "multiply")
  have divides := arithmetic_exact 20 (given "\\r by -2 ") (.control "divide")
  rw [eq_ok_of_value? isProduct] at multiplies
  rw [eq_ok_of_value? isQuotient] at divides
  obtain ⟨-, kept, fails, -⟩ := multiplies
  obtain ⟨-, -, -, succeeds⟩ := divides
  obtain ⟨fault, isOther, isError⟩ :=
    fails ⟨4611686018427387904, by simp [glue, Quantity.components, Glue.components,
      Fill.components], by decide⟩
  obtain ⟨result, isResult, isOk⟩ := succeeds (by
    simp only [Operation.Overflows, glue, Quantity.components, Glue.components, Fill.components]
    decide)
  exact ⟨⟨fault, _, isOther, isError, kept⟩, _, isOk, by rw [isResult]; rfl⟩

end Engine

end TexTree
