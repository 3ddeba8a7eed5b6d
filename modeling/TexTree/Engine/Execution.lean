import TexTree.Engine.Assignment
import TexTree.Engine.Environment
import TexTree.Engine.Files
import TexTree.Engine.Formula
import TexTree.Engine.Package

/-!
# Executing commands

A command is expanded if it can be; otherwise it changes the engine, produces an
item, or does both.
-/

namespace TexTree

namespace Engine

/-- Perform the action of a command that was invoked by a token. -/
def perform (interpreter : Interpreter) (token : Token) : Action → TexM Unit
  | .define command expanded isGlobal => define interpreter command expanded isGlobal
  | .letMeaning => letMeaning
  | .letNextMeaning => letNextMeaning
  | .makeGlobal => modify fun engine => { engine with globalNext := true }
  | .makeProtected => modify fun engine => { engine with protectedNext := true }
  | .nothing => return
  | .defineCharacter => defineCharacter interpreter token
  | .character => putCharacter interpreter
  | .categoryCode => assignCategory interpreter
  | .strayNameEnd => warn "commands" "Extra \\endcsname"
  | .readFile => readFile interpreter token
  | .endFile => modify fun engine => { engine with input := engine.input.endInput }
  | .showValue => do
      match ← internalValue interpreter with
      | some value => report (.info "commands" ("> " ++ value ++ "."))
      | none => return
  | .openStream => openStream interpreter
  | .writeStream => writeStream interpreter
  | .closeStream => closeStream interpreter
  | .newRegister => allocateRegister token
  | .arithmetic => doArithmetic interpreter token
  | .setLength => setLength interpreter token
  | .newSwitch => createSwitch
  | .newCommand => createCommand interpreter token
  | .newEnvironment => createEnvironment interpreter token
  | .categorizeAt category => categorize '@' category false
  | .newCounter => createNamedCounter
  | .setCounter => setCounter interpreter token
  | .stepCounter => stepCounter
  | .loadPackages => loadNamedPackages interpreter token
  | .provides => do
      let _ ← readName
      let _ ← readBracketed '[' ']'
  | .newTheorem => createTheorem interpreter token

/-- Construct what a command stands for that was invoked by a token. -/
def construct (interpreter : Interpreter) (token : Token) : Construction → TexM (Option NodeId)
  | .openGroup => some <$> openGroup token
  | .closeGroup => some <$> closeGroup token
  | .beginEnvironment => some <$> beginEnvironment interpreter token
  | .endEnvironment => endEnvironment interpreter token
  | .mathShift => some <$> shiftMath interpreter token
  | .openMath environment delimiter =>
      some <$> openMath interpreter token environment delimiter
  | .closeMath environment => some <$> closeMath interpreter token environment
  | .script => setScript interpreter token
  | .alignmentTab => some <$> createElement (Token.active '&').text Level.command .plain
  | .verbatimText => some <$> takeVerbatim token

/-- Execute a command that cannot be expanded. -/
def execute (interpreter : Interpreter) (token : Token) : Command → TexM (Option Item)
  | .primitive _ (.action effect) => do
      perform interpreter token effect
      return none
  | .primitive _ (.construction kind) => do
      return (← construct interpreter token kind).map .node
  | .element element => return some (.node (← invokeElement interpreter element token .plain))
  | .environment _ opening _ => do
      pushTokens (← callDefinition opening token)
      return none
  | .switchSetter target state => do
      setCommand target (.switch target state) (← takeGlobal)
      return none
  | .character value | .mathCharacter value => return some (.token (.other value))
  | .register name => do
      assignRegister interpreter name
      return none
  | .unrecognized name => return some (.node (← createElement name Level.command .plain))
  | _ => return none

/-- Expand or execute a token with the given meaning. -/
def invoke (interpreter : Interpreter) (token : Token) (command : Command) :
    TexM (Option Item) := do
  if ← interpreter.run (.expand token command) then return none
  else execute interpreter token command

end Engine

end TexTree
