import TexTree.Proofs.Engine.Expanding
import TexTree.Proofs.Engine.Regular

/-!
# What assignments retain

Definitions and assignments, the allocation of registers and switches, files and output streams, and
the reading of arguments that are not interpreted change meanings, categories, registers and files,
besides what reading changes.  No meaning that is given by them is an element.  What does not depend
on more than that (`Undisturbed`) is retained by all of them.
-/

namespace TexTree

namespace Engine

/-- What holds of an engine is touched neither by reading nor by assignments. -/
class Undisturbed (holds : Engine → Prop) : Prop extends Unaffected holds where
  flags : ∀ {engine : Engine} (globalNext protectedNext : Bool), holds engine →
    holds { engine with globalNext, protectedNext }
  registers : ∀ {engine : Engine} (registers : Table Quantity), holds engine →
    holds { engine with registers }
  files : ∀ {engine : Engine} (files : Files), holds engine → holds { engine with files }
  setCommand : ∀ {engine : Engine} (name : String) {command : Command} (isGlobal : Bool),
    command.Regular → holds engine →
    holds { engine with scopes := engine.scopes.setCommand name command isGlobal }
  letToken : ∀ {engine : Engine} (name : String) (source : Token) (isGlobal : Bool),
    holds engine → holds { engine with scopes := engine.scopes.letToken name source isGlobal }
  categorize : ∀ {engine : Engine} (character : Char) (category : Category) (isGlobal : Bool),
    holds engine →
    holds { engine with scopes := engine.scopes.categorize character category isGlobal }

variable {holds : Engine → Prop} {interpreter : Interpreter} [undisturbed : Undisturbed holds]

/-! ## Definitions and assignments -/

@[grind ←] theorem retains_setCommand (name : String) {command : Command}
    (isRegular : command.Regular) (isGlobal : Bool) :
    Retains holds (setCommand name command isGlobal) :=
  fun _ kept => undisturbed.setCommand name isGlobal isRegular kept

@[grind .] theorem retains_categorize (character : Char) (category : Category) (isGlobal : Bool) :
    Retains holds (categorize character category isGlobal) :=
  fun _ kept => undisturbed.categorize character category isGlobal kept

@[grind .] theorem retains_takeGlobal : Retains holds takeGlobal :=
  fun engine kept => undisturbed.flags false engine.protectedNext kept

@[grind .] theorem retains_takeProtected : Retains holds takeProtected :=
  fun engine kept => undisturbed.flags engine.globalNext false kept

@[grind ←] theorem retains_readDefinition (reads : interpreter.Retains holds) (name : String)
    (expanded : Bool) : Retains holds (readDefinition interpreter name expanded) := by
  grind [readDefinition]

@[grind ←] theorem retains_define (reads : interpreter.Retains holds) (command : String)
    (expanded isGlobal : Bool) :
    Retains holds (define interpreter command expanded isGlobal) := by
  grind [define]

@[grind .] theorem retains_letToken (name : String) (source : Token) (isGlobal : Bool) :
    Retains holds (letToken name source isGlobal) :=
  fun _ kept => undisturbed.letToken name source isGlobal kept

@[grind .] theorem retains_letMeaning : Retains holds letMeaning := by
  grind [letMeaning]

@[grind .] theorem retains_letNextMeaning : Retains holds letNextMeaning := by
  unfold letNextMeaning
  refine retains_takeGlobal.bind fun isGlobal => (retains_readDefinedName _).bind fun name => ?_
  grind

@[grind ←] theorem retains_defineCharacter (reads : interpreter.Retains holds) (token : Token) :
    Retains holds (defineCharacter interpreter token) := by
  unfold defineCharacter
  refine retains_takeGlobal.bind fun isGlobal => ?_
  extract_lets inMath
  refine (retains_readDefinedName _).bind fun name => (retains_skipEquals reads).bind fun _ => ?_
  refine (retains_readInteger reads).bind fun number => ?_
  grind

@[grind ←] theorem retains_putCharacter (reads : interpreter.Retains holds) :
    Retains holds (putCharacter interpreter) := by
  grind [putCharacter]

@[grind ←] theorem retains_assignCategory (reads : interpreter.Retains holds) :
    Retains holds (assignCategory interpreter) := by
  unfold assignCategory
  refine retains_takeGlobal.bind fun isGlobal => (retains_readInteger reads).bind fun number => ?_
  refine (retains_skipEquals reads).bind fun _ => (retains_readInteger reads).bind fun code => ?_
  grind

theorem Undisturbed.createRegister {engine : Engine} (kept : holds engine) (name : String)
    (value : Quantity) : holds (engine.createRegister name value) :=
  undisturbed.setCommand name true (Command.regular_register name)
    (undisturbed.registers (engine.registers.insert name value) kept)

theorem Undisturbed.setRegister {engine : Engine} (kept : holds engine) (name : String)
    (value : Quantity) : holds (engine.setRegister name value) := by
  unfold Engine.setRegister
  split
  · exact undisturbed.registers _ kept
  · exact kept

theorem retains_setRegister (name : String) (value : Quantity) :
    Retains holds (modify fun engine => engine.setRegister name value) :=
  retains_modify fun _ kept => Undisturbed.setRegister kept name value

@[grind .] theorem retains_allocateRegister (token : Token) :
    Retains holds (allocateRegister token) :=
  (retains_readDefinedName _).bind fun name =>
    retains_modify fun _ kept => Undisturbed.createRegister kept name _

@[grind ←] theorem retains_assignRegister (reads : interpreter.Retains holds) (name : String) :
    Retains holds (assignRegister interpreter name) := by
  unfold assignRegister
  refine retains_takeGlobal.bind fun _ => retains_get.bind fun engine => ?_
  split
  · exact retains_fail _
  · next old _ =>
      refine (retains_skipEquals reads).bind fun _ => (retains_readQuantity reads old).bind ?_
      exact fun value => retains_setRegister name value

@[grind ←] theorem retains_doArithmetic (reads : interpreter.Retains holds) (token : Token) :
    Retains holds (doArithmetic interpreter token) := by
  unfold doArithmetic
  refine retains_takeGlobal.bind fun _ => (retains_readRegister reads _).bind fun register => ?_
  refine (retains_readKeyword reads _).bind fun _ => ?_
  refine (retains_arithmeticResult reads token _ _).bind fun value => ?_
  exact retains_setRegister register.1 value

@[grind ←] theorem retains_setLength (reads : interpreter.Retains holds) (token : Token) :
    Retains holds (setLength interpreter token) := by
  unfold setLength
  refine retains_readControl.bind fun register => retains_get.bind fun engine => ?_
  split
  · exact retains_fail _
  · next old _ =>
      refine (retains_readArgumentFor _).bind fun tokens => ?_
      refine (retains_readingTokens tokens (retains_readQuantity reads old)).bind fun value => ?_
      exact retains_setRegister register.text _

@[grind .] theorem retains_createSwitch : Retains holds createSwitch := by
  grind [createSwitch]

/-! ## Files -/

@[grind .] theorem retains_inputFile (name : String) : Retains holds (inputFile name) := by
  grind [inputFile]

@[grind ←] theorem retains_readFile (reads : interpreter.Retains holds) (token : Token) :
    Retains holds (readFile interpreter token) := by
  grind [readFile]

@[grind .] theorem retains_changeFiles (change : Files → Files × List LogEntry) :
    Retains holds (changeFiles change) := by
  refine Retains.bind (fun _ kept => undisturbed.files _ kept) fun reports => ?_
  exact retains_reportAll reports

@[grind ←] theorem retains_openStream (reads : interpreter.Retains holds) :
    Retains holds (openStream interpreter) := by
  grind [openStream]

@[grind ←] theorem retains_writeStream (reads : interpreter.Retains holds) :
    Retains holds (writeStream interpreter) := by
  grind [writeStream]

@[grind ←] theorem retains_closeStream (reads : interpreter.Retains holds) :
    Retains holds (closeStream interpreter) := by
  grind [closeStream]

/-! ## User commands and environments -/

@[grind .] theorem retains_makeDefinition (name : String) (arity : Nat)
    (fallback : Option (List Token)) (body : List Token) :
    Retains holds (makeDefinition name arity fallback body) := by
  grind [makeDefinition]

@[grind ←] theorem retains_createCommand (reads : interpreter.Retains holds) (token : Token) :
    Retains holds (createCommand interpreter token) := by
  unfold createCommand
  refine retains_readStar.bind fun _ => retains_readControl.bind fun control => ?_
  extract_lets name rest
  have retainsRest : ∀ value, Retains holds (rest value) := by
    intro value
    refine (retains_readArity reads _).bind fun arity => ?_
    refine (retains_readBracketed _ _).bind fun fallback => ?_
    refine (retains_readArgumentFor _).bind fun body => ?_
    grind
  split
  · exact (retains_fail _).bind retainsRest
  · exact retainsRest ()

@[grind ←] theorem retains_createEnvironment (reads : interpreter.Retains holds) (token : Token) :
    Retains holds (createEnvironment interpreter token) := by
  unfold createEnvironment
  refine retains_readStar.bind fun _ => retains_readName.bind fun name => ?_
  refine (retains_readArity reads _).bind fun arity => ?_
  refine (retains_readBracketed _ _).bind fun fallback => ?_
  refine (retains_readArgumentFor _).bind fun opening => ?_
  refine (retains_readArgumentFor _).bind fun closing => ?_
  grind

@[grind .] theorem retains_endUserEnvironment (name : String) (closing : Option Definition) :
    Retains holds (endUserEnvironment name closing) := by
  cases closing <;> grind [endUserEnvironment]

end Engine

end TexTree
