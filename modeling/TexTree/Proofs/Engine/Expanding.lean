import TexTree.Proofs.Engine.Retaining

/-!
# What reading and expansion retain

Numbers, names, conditions and calls are read with expansion.  Whatever such readers cannot affect
still holds when something has been read or expanded, also if this fails
(`retains_interpreter`).
-/

namespace TexTree

namespace Engine

variable {holds : Engine → Prop} {interpreter : Interpreter} {α β : Type}

variable [unaffected : Unaffected holds]

/-! ## Tokens, keywords and file names -/

@[grind .] theorem retains_nextToken : Retains holds nextToken := by
  grind [nextToken]

@[grind ←] theorem retains_unexpandable (reads : interpreter.Retains holds) :
    Retains holds (unexpandable interpreter) := by
  suffices each : ∀ steps, Retains holds (unexpandableWithin interpreter steps) from
    each interpreter.limit
  intro steps
  induction steps with
  | zero => exact retains_fail _
  | succ steps ih =>
      unfold unexpandableWithin
      refine retains_nextToken.bind fun next => ?_
      split <;> grind

@[grind ←] theorem retains_skipSpacesExpanded (reads : interpreter.Retains holds) :
    Retains holds (skipSpacesExpanded interpreter) := by
  suffices each : ∀ steps, Retains holds (skipSpacesWithin interpreter steps) from
    each interpreter.limit
  intro steps
  induction steps with
  | zero => exact retains_fail _
  | succ steps ih => grind [skipSpacesWithin]

@[grind ←] theorem retains_skipOneSpace (reads : interpreter.Retains holds) :
    Retains holds (skipOneSpace interpreter) := by
  grind [skipOneSpace]

@[grind ←] theorem retains_skipEquals (reads : interpreter.Retains holds) :
    Retains holds (skipEquals interpreter) := by
  grind [skipEquals]

@[grind ←] theorem retains_readKeywordFrom (reads : interpreter.Retains holds) (read : List Token)
    (rest : List Char) : Retains holds (readKeywordFrom interpreter read rest) := by
  induction rest generalizing read with
  | nil => exact retains_pure _
  | cons character rest ih => grind [readKeywordFrom]

@[grind ←] theorem retains_readKeyword (reads : interpreter.Retains holds) (keyword : String) :
    Retains holds (readKeyword interpreter keyword) := by
  grind [readKeyword]

@[grind ←] theorem retains_expandFullyWithin (reads : interpreter.Retains holds) (steps : Nat)
    (read : List Token) : Retains holds (expandFullyWithin interpreter steps read) := by
  induction steps generalizing read with
  | zero => exact retains_fail _
  | succ steps ih =>
      unfold expandFullyWithin
      refine retains_nextRaw.bind fun next => ?_
      split
      · exact retains_fail _
      · split <;> grind

@[grind ←] theorem retains_expandFully (reads : interpreter.Retains holds) (tokens : List Token) :
    Retains holds (expandFully interpreter tokens) := by
  grind [expandFully]

@[grind ←] theorem retains_readFileName (reads : interpreter.Retains holds) :
    Retains holds (readFileName interpreter) := by
  have within : ∀ steps read, Retains holds (readFileNameWithin interpreter steps read) := by
    intro steps
    induction steps with
    | zero => exact fun _ => retains_fail _
    | succ steps ih => grind [readFileNameWithin]
  grind [readFileName]

/-! ## Numbers, dimensions and glue -/

@[grind .] theorem retains_missingNumber (found : Option Token) :
    Retains holds (missingNumber found) := by
  cases found <;> grind [missingNumber]

@[grind ←] theorem retains_readDigits (reads : interpreter.Retains holds) (base : Nat)
    (first : Option Nat) (negative : Bool) :
    Retains holds (readDigits interpreter base first negative) := by
  have within : ∀ steps value, Retains holds (digitsWithin interpreter base steps value) := by
    intro steps
    induction steps with
    | zero => exact fun _ => retains_fail _
    | succ steps ih => grind [digitsWithin]
  grind [readDigits]

@[grind .] theorem retains_alphabeticConstant (token : Token) :
    Retains holds (alphabeticConstant token) := by
  grind [alphabeticConstant]

@[grind ←] theorem retains_integerWithin (reads : interpreter.Retains holds) (steps : Nat)
    (negative : Bool) : Retains holds (integerWithin interpreter steps negative) := by
  induction steps generalizing negative with
  | zero => exact retains_fail _
  | succ steps ih =>
      unfold integerWithin
      refine (retains_unexpandable reads).bind fun next => ?_
      split
      case h_6 token =>
        -- A character: a sign, the start of a constant, or no part of a number.
        split
        · exact ih negative
        · split <;> grind
        · grind
      all_goals grind

@[grind ←] theorem retains_readInteger (reads : interpreter.Retains holds) :
    Retains holds (readInteger interpreter) := retains_integerWithin reads _ _

@[grind ←] theorem retains_readDecimal (reads : interpreter.Retains holds) (first : Token) :
    Retains holds (readDecimal interpreter first) := by
  suffices each : ∀ steps read, Retains holds (decimalWithin interpreter steps read) from
    each _ _
  intro steps
  induction steps with
  | zero => exact fun _ => retains_fail _
  | succ steps ih => grind [decimalWithin]

@[grind ←] theorem retains_readFloat (reads : interpreter.Retains holds) :
    Retains holds (readFloat interpreter) := by
  suffices each : ∀ steps negative, Retains holds (floatWithin interpreter steps negative) from
    each _ _
  intro steps
  induction steps with
  | zero => exact fun _ => retains_fail _
  | succ steps ih => grind [floatWithin]

@[grind ←] theorem retains_readFactor (reads : interpreter.Retains holds) :
    Retains holds (readFactor interpreter) := by
  suffices each : ∀ steps negative, Retains holds (factorWithin interpreter steps negative) from
    each _ _
  intro steps
  induction steps with
  | zero => exact fun _ => retains_fail _
  | succ steps ih =>
      intro negative
      unfold factorWithin
      refine (retains_unexpandable reads).bind fun next => ?_
      split <;> grind

@[grind ←] theorem retains_readNamedUnit (reads : interpreter.Retains holds) (units : List String) :
    Retains holds (readNamedUnit interpreter units) := by
  induction units with
  | nil => exact retains_pure _
  | cons unit rest ih => grind [readNamedUnit]

@[grind ←] theorem retains_readRegisterUnit (reads : interpreter.Retains holds) :
    Retains holds (readRegisterUnit interpreter) := by
  unfold readRegisterUnit
  refine (retains_unexpandable reads).bind fun next => ?_
  split
  · exact retains_pure _
  · dsimp only
    split <;> grind

@[grind ←] theorem retains_readUnit (reads : interpreter.Retains holds) (factor : Float)
    (inMath : Bool) : Retains holds (readUnit interpreter factor inMath) := by
  grind [readUnit]

@[grind ←] theorem retains_readDimensionIn (reads : interpreter.Retains holds) (inMath : Bool) :
    Retains holds (readDimensionIn interpreter inMath) := by
  grind [readDimensionIn]

@[grind ←] theorem retains_readDimension (reads : interpreter.Retains holds) :
    Retains holds (readDimension interpreter) := retains_readDimensionIn reads false

@[grind ←] theorem retains_readOrder (reads : interpreter.Retains holds)
    (orders : List (Nat × String)) : Retains holds (readOrder interpreter orders) := by
  induction orders with
  | nil => exact retains_pure _
  | cons order rest ih => grind [readOrder]

@[grind ←] theorem retains_readFill (reads : interpreter.Retains holds) (inMath : Bool) :
    Retains holds (readFill interpreter inMath) := by
  grind [readFill]

@[grind ←] theorem retains_readRegisterGlue (reads : interpreter.Retains holds) (inMath : Bool) :
    Retains holds (readRegisterGlue interpreter inMath) := by
  unfold readRegisterGlue
  refine (retains_unexpandable reads).bind fun next => ?_
  split
  · exact retains_pure _
  · dsimp only
    split <;> grind

@[grind ←] theorem retains_readComponent (reads : interpreter.Retains holds) (keyword : String)
    (inMath : Bool) : Retains holds (readComponent interpreter keyword inMath) := by
  grind [readComponent]

@[grind ←] theorem retains_readGlue (reads : interpreter.Retains holds) (inMath : Bool) :
    Retains holds (readGlue interpreter inMath) := by
  grind [readGlue]

@[grind ←] theorem retains_readQuantity (reads : interpreter.Retains holds) (old : Quantity) :
    Retains holds (readQuantity interpreter old) := by
  cases old <;> grind [readQuantity]

@[grind ←] theorem retains_readRegister (reads : interpreter.Retains holds) (command : String) :
    Retains holds (readRegister interpreter command) := by
  grind [readRegister]

@[grind ←] theorem retains_arithmeticResult (reads : interpreter.Retains holds) (token : Token)
    (name : String) (old : Quantity) :
    Retains holds (arithmeticResult interpreter token name old) := by
  grind [arithmeticResult]

/-! ## Arguments that are not interpreted -/

@[grind ←] theorem retains_readWordWithin (reads : interpreter.Retains holds) (steps : Nat)
    (read : List Token) : Retains holds (readWordWithin interpreter steps read) := by
  induction steps generalizing read with
  | zero => exact retains_fail _
  | succ steps ih => grind [readWordWithin]

@[grind ←] theorem retains_readDirect (reads : interpreter.Retains holds) (type : ArgumentType) :
    Retains holds (readDirect interpreter type) := by
  cases type <;> grind [readDirect]

@[grind ←] theorem retains_readArity (reads : interpreter.Retains holds) (command : String) :
    Retains holds (readArity interpreter command) := by
  grind [readArity]

/-! ## Conditionals -/

@[grind .] theorem retains_readBranches : Retains holds readBranches := by
  grind [readBranches]

@[grind .] theorem retains_takeBranch (outcome : Bool) : Retains holds (takeBranch outcome) := by
  grind [takeBranch]

@[grind .] theorem retains_takeCase (number : Int) : Retains holds (takeCase number) := by
  grind [takeCase]

@[grind ←] theorem retains_readRelation (reads : interpreter.Retains holds) (command : String) :
    Retains holds (readRelation interpreter command) := by
  grind [readRelation]

@[grind ←] theorem retains_readTwoExpanded (reads : interpreter.Retains holds) (command : String) :
    Retains holds (readTwoExpanded interpreter command) := by
  grind [readTwoExpanded]

@[grind ←] theorem retains_testCondition (reads : interpreter.Retains holds) (token : Token)
    (test : Condition) : Retains holds (testCondition interpreter token test) := by
  cases test <;> grind [testCondition]

/-! ## Expansions -/

@[grind ←] theorem retains_controlNameWithin (reads : interpreter.Retains holds) (steps : Nat)
    (read : String) : Retains holds (controlNameWithin interpreter steps read) := by
  induction steps generalizing read with
  | zero => exact retains_fail _
  | succ steps ih => grind [controlNameWithin]

/-- A name is only given a meaning if it has none. -/
@[grind ←] theorem retains_namedControl (reads : interpreter.Retains holds) :
    Retains holds (namedControl interpreter) := by
  refine (retains_controlNameWithin reads _ _).bind fun name engine kept => ?_
  simp only [Bind.bind, EStateM.bind, get_run]
  cases defined : engine.scopes.isDefined name with
  | true => exact kept
  | false =>
      cases found : engine.scopes.command? "relax" with
      | none => exact kept
      | some relax => exact unaffected.relax kept defined found

@[grind .] theorem retains_frozenToken : Retains holds frozenToken := by
  grind [frozenToken]

@[grind ←] theorem retains_expandedBehind (reads : interpreter.Retains holds) :
    Retains holds (expandedBehind interpreter) := by
  unfold expandedBehind
  refine (retains_nextRawFor _).bind fun first => retains_nextToken.bind fun next => ?_
  split <;> grind

@[grind ←] theorem retains_internalValue (reads : interpreter.Retains holds) :
    Retains holds (internalValue interpreter) := by
  grind [internalValue]

@[grind ←] theorem retains_expansionOf (reads : interpreter.Retains holds) (token : Token)
    (result : Expansion) : Retains holds (expansionOf interpreter token result) := by
  cases result <;> grind [expansionOf]

@[grind .] theorem retains_readCall (rule : Definition) (token : Token) :
    Retains holds (readCall rule token) := retains_readingOrFail _

@[grind .] theorem retains_callDefinition (rule : Definition) (token : Token) :
    Retains holds (callDefinition rule token) := by
  grind [callDefinition]

@[grind ←] theorem retains_expandCommand (reads : interpreter.Retains holds) (token : Token)
    (command : Command) : Retains holds (expandCommand interpreter token command) := by
  grind [expandCommand]

/-- The interpreter retains what holds when it expands a command. -/
theorem retains_interpreter (holds : Engine → Prop) [Unaffected holds] (fuel : Nat) :
    (Engine.interpreter fuel).Retains holds := by
  induction fuel with
  | zero => exact fun _ _ => retains_fail _
  | succ fuel ih => exact retains_expandCommand ih

end Engine

end TexTree
