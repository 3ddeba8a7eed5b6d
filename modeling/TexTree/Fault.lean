import TexTree.File.Tree
import TexTree.Token

/-!
# Faults

Most faults of a source are mended and reported in the log.  The others, listed
here, end the interpretation of the source.
-/

namespace TexTree

/-- The kinds of faults. -/
inductive FaultKind where
  /-- Groups or environments do not match. -/
  | structural
  /-- An argument is missing or is not what it should be. -/
  | argument
  /-- A relation is malformed. -/
  | conditional
  /-- Something has to be defined and is not. -/
  | undefined
  /-- A file cannot be read. -/
  | file
  | other
  deriving DecidableEq, Repr, Inhabited

/-- The kind in words. -/
def FaultKind.text : FaultKind → String
  | .structural => "Structure error"
  | .argument => "Argument error"
  | .conditional => "Conditional error"
  | .undefined => "Undefined"
  | .file => "I/O error"
  | .other => "Error"

/-- What ends the interpretation of a source. -/
inductive Fault where
  /-- The input ended. -/
  | inputEnded
  /-- The input ended while a command was being read. -/
  | inputEndedIn (command : String)
  | missingControl
  | missingControlAfter (command : String) (found : Token)
  | missingNameEnd (before : String)
  | missingArgument (argument command : String)
  | missingContent (command : String)
  | missingEnvironmentName
  | missingRelation (command : String) (found : Token)
  | illegalArity (count : Int) (command : String)
  /-- A call does not look like the parameter text of its definition. -/
  | mismatch (command : String) (expected found : Token)
  | unusableBehind (token : Token) (command : String)
  | badCharacterCode (code : Int)
  | badCategoryCode (code : Int)
  /-- A group is closed that was not opened. -/
  | extraGroupEnd (name : String)
  /-- An environment is closed that was not opened. -/
  | unmatchedEnd (name : String)
  | badMathDelimiter (token : Token)
  | unallocatedRegister (name : String)
  | notLength (name : String)
  | unknownCounter (name : String)
  | cyclicCounter (name superior : String)
  | productOverflow (register : String) (factor : Int)
  | quotientOverflow (register : String) (divisor : Int)
  | divisionByZero (register : String)
  /-- Commands are expanded over and over without producing anything. -/
  | runaway (token : Token) (limit : Nat)
  | unreadable (error : FileError)
  /-- The number of steps that were granted is used up. -/
  | outOfFuel
  deriving DecidableEq, Repr, Inhabited

namespace Fault

/-- The kind of a fault. -/
def kind : Fault → FaultKind
  | .inputEnded | .inputEndedIn _ | .missingControl | .missingControlAfter _ _
  | .missingNameEnd _ | .missingArgument _ _ | .missingContent _ | .missingEnvironmentName
  | .illegalArity _ _ | .mismatch _ _ _ | .unusableBehind _ _ | .cyclicCounter _ _ => .argument
  | .missingRelation _ _ => .conditional
  | .badCharacterCode _ | .badCategoryCode _ | .extraGroupEnd _ | .unmatchedEnd _
  | .badMathDelimiter _ => .structural
  | .unallocatedRegister _ | .notLength _ | .unknownCounter _ => .undefined
  | .productOverflow _ _ | .quotientOverflow _ _ | .divisionByZero _ | .runaway _ _
  | .outOfFuel => .other
  | .unreadable _ => .file

/-- The fault in words. -/
def message : Fault → String
  | .inputEnded => "File ended unexpectedly"
  | .inputEndedIn command => "File ended while scanning use of \\" ++ command
  | .missingControl => "Missing control sequence"
  | .missingControlAfter command found =>
      "Missing control sequence after \\" ++ command ++ " (found " ++ found.display ++ ")"
  | .missingNameEnd before => "Missing \\endcsname inserted before \\" ++ before
  | .missingArgument argument command => "Missing argument " ++ argument ++ " of \\" ++ command
  | .missingContent command => "Missing argument of \\" ++ command
  | .missingEnvironmentName => "Missing environment name after \\begin"
  | .missingRelation command found =>
      "Missing = inserted for \\" ++ command ++ " (found " ++ found.display ++ ")"
  | .illegalArity count command =>
      "Illegal number of arguments (" ++ toString count ++ ") for \\" ++ command
  | .mismatch command expected found =>
      "Use of \\" ++ command ++ " doesn't match its definition: expected " ++
        expected.display ++ ", found " ++ found.display
  | .unusableBehind token command => "You can't use " ++ token.display ++ " after \\" ++ command
  | .badCharacterCode code => "Bad character code (" ++ toString code ++ ")"
  | .badCategoryCode code =>
      "Invalid code (" ++ toString code ++ "), should be in the range 0..15"
  | .extraGroupEnd name => "Extra \\" ++ name ++ ", or forgotten \\end"
  | .unmatchedEnd name =>
      "\\end\x7b" ++ name ++ "\x7d without matching \\begin\x7b" ++ name ++ "\x7d"
  | .badMathDelimiter token => "Bad math environment delimiter " ++ token.display
  | .unallocatedRegister name => "Register \\" ++ name ++ " is not allocated"
  | .notLength name => "\\" ++ name ++ " is not a length"
  | .unknownCounter name => "No counter '" ++ name ++ "' defined"
  | .cyclicCounter name superior =>
      "Counter " ++ name ++ " can not be reset by " ++ superior
  | .productOverflow register factor =>
      "Arithmetic overflow: \\" ++ register ++ " multiplied by " ++ toString factor
  | .quotientOverflow register divisor =>
      "Arithmetic overflow: \\" ++ register ++ " divided by " ++ toString divisor
  | .divisionByZero register => "Arithmetic overflow: division of \\" ++ register ++ " by zero"
  | .runaway token limit =>
      "Runaway expansion at " ++ token.display ++ "; more than " ++ toString limit ++
        " expansions without output"
  | .unreadable error => error.message
  | .outOfFuel => "The interpretation takes too many steps"

end Fault

/-- Where in the input a fault was found. -/
structure FaultPlace where
  /-- The position, if a text was being read. -/
  position : Option Position
  /-- What was left of the line. -/
  preview : String
  deriving DecidableEq, Repr, Inhabited

/-- A fault and, if it ended a whole source, its place. -/
structure TexError where
  fault : Fault
  place : Option FaultPlace := none
  deriving DecidableEq, Repr, Inhabited

namespace TexError

/-- The error as it is shown: the kind, the fault, and the place with the line
below it. -/
def message (error : TexError) : String :=
  let start := "! " ++ error.fault.kind.text ++ ": " ++ error.fault.message
  match error.place with
  | none => start
  | some ⟨some position, preview⟩ =>
      start ++ " at " ++ position.text ++ "\nl." ++ toString position.line ++ " " ++ preview
  | some ⟨none, preview⟩ => start ++ "\nl.0 " ++ preview

end TexError

end TexTree
