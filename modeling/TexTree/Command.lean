import TexTree.Argument
import TexTree.Counter.Template
import TexTree.Definition
import TexTree.Document.Basic

/-!
# Commands

A command is what a control sequence means: a built-in primitive, an element that
becomes a node of the document, a user definition, or one of a few kinds of
values.  A name that is used without having a meaning is bound to a placeholder.

This module only says what commands there are and when two of them mean the same.
What each of them does is the business of the interpreter.
-/

namespace TexTree

/-- The tests behind the built-in conditionals. -/
inductive Condition where
  /-- Two expanded tokens have the same character. -/
  | sameCharacter
  /-- Two expanded tokens have the same category. -/
  | sameCategory
  /-- Two unexpanded tokens have the same meaning. -/
  | sameMeaning
  /-- Two integers stand in a relation. -/
  | integers
  /-- Two dimensions stand in a relation. -/
  | dimensions
  /-- An integer is odd, or even. -/
  | parity
  /-- Formulas or text are being read. -/
  | mode
  /-- A box or an input stream is empty. -/
  | box
  | always (outcome : Bool)
  /-- A control sequence has a meaning. -/
  | defined
  deriving DecidableEq, Repr, Inhabited

/-- What the built-in expandable commands are replaced by. -/
inductive Expansion where
  /-- The control sequence whose name is spelled out. -/
  | namedControl
  /-- The characters of the next token. -/
  | spelling
  /-- The next token, kept from expansion. -/
  | frozenToken
  /-- The next token, with the one behind it expanded. -/
  | expandedBehind
  /-- The value of a register or code. -/
  | internalValue
  | integer
  | romanNumeral
  | jobName
  /-- The meaning of the next token in words. -/
  | meaningOfToken
  /-- The branch with a given number. -/
  | branch
  | nothing
  | counterValue
  | counterStyle
  | date
  | fixed (tokens : List Token)
  deriving DecidableEq, Repr, Inhabited

/-- What the built-in commands that produce nothing do. -/
inductive Action where
  /-- Define a control sequence; the replacement text may be expanded first, and
  the definition may be global in any case. -/
  | define (command : String) (expanded isGlobal : Bool)
  | letMeaning
  | letNextMeaning
  | makeGlobal
  | makeProtected
  | nothing
  | defineCharacter
  | character
  | categoryCode
  /-- Report an `\endcsname` that ends nothing. -/
  | strayNameEnd
  | readFile
  | endFile
  | showValue
  | openStream
  | writeStream
  | closeStream
  | newRegister
  | arithmetic
  | setLength
  | newSwitch
  | newCommand
  | newEnvironment
  /-- Give the character `@` a category. -/
  | categorizeAt (category : Category)
  | newCounter
  | setCounter
  | stepCounter
  | loadPackages
  /-- Read and ignore what a package says about itself. -/
  | provides
  | newTheorem
  deriving DecidableEq, Repr, Inhabited

/-- What the built-in commands that may produce a node do. -/
inductive Construction where
  | openGroup
  | closeGroup
  | beginEnvironment
  | endEnvironment
  /-- Open or close a formula, whichever is due. -/
  | mathShift
  | openMath (environment delimiter : String)
  | closeMath (environment : String)
  /-- An exponent or an index. -/
  | script
  | alignmentTab
  | verbatimText
  deriving DecidableEq, Repr, Inhabited

/-- The built-in commands that are not elements. -/
inductive Primitive where
  | condition (test : Condition)
  | expansion (result : Expansion)
  | action (effect : Action)
  | construction (kind : Construction)
  deriving DecidableEq, Repr, Inhabited

/-- What some elements do when their arguments have been read. -/
inductive ElementHook where
  | list
  | enumerateItem
  | document
  | verbatim
  /-- Step the counter that the first argument names. -/
  | stepCounter
  deriving DecidableEq, Repr, Inhabited

/-- A command or environment that becomes a node of the document.  The parameter
is the type of the commands that the element defines while it is open. -/
structure ElementOf (Local : Type) where
  name : String
  arguments : List Argument := []
  level : Level := Level.command
  /-- Whether the element is used with `\begin` and `\end`. -/
  isEnvironment : Bool := false
  digest : Digest := .nothing
  block : Bool := false
  /-- The counter that numbers the element. -/
  counter : Option String := none
  /-- Whether the element switches to formulas or back to text. -/
  math : Option Bool := none
  locals : List (String × Local) := []
  /-- Attributes that all nodes of the element have. -/
  fixed : List (String × Value) := []
  hook : Option ElementHook := none

/-- What a control sequence means. -/
inductive Command where
  | primitive (name : String) (behaviour : Primitive)
  | element (shape : ElementOf Command)
  | definition (rule : Definition)
  /-- An environment with its code at the beginning and at the end. -/
  | environment (name : String) (opening closing : Definition)
  /-- A conditional that the user can switch. -/
  | switch (name : String) (state : Bool)
  | switchSetter (target : String) (state : Bool)
  /-- The printed form of a counter. -/
  | printedCounter (counter : String) (template : Template)
  | character (value : Char)
  | mathCharacter (value : Char)
  | register (name : String)
  /-- The placeholder of a name that has no meaning. -/
  | unrecognized (name : String)

/-- An element whose local definitions are commands. -/
abbrev Element := ElementOf Command

namespace ElementOf

/-- An environment. -/
def environment {Local : Type} (name : String) (arguments : List Argument) : ElementOf Local :=
  { name, arguments, level := Level.environment, isEnvironment := true, digest := .environment }

end ElementOf

namespace Command

instance : Inhabited Command := ⟨.unrecognized ""⟩

/-- Whether the command only rewrites the input, so that it is expanded where a
number or a keyword is read. -/
def isExpandable : Command → Bool
  | .primitive _ (.condition _) | .primitive _ (.expansion _) => true
  | .definition _ | .switch _ _ | .printedCounter _ _ => true
  | _ => false

/-- Whether the command is only a placeholder. -/
def isUnrecognized : Command → Bool
  | .unrecognized _ => true
  | _ => false

/-- The name of a primitive. -/
def primitiveName? : Command → Option String
  | .primitive name _ => some name
  | _ => none

/-- The template of the printed form of a counter. -/
def template? : Command → Option Template
  | .printedCounter _ template => some template
  | _ => none

/-- Whether two commands mean the same, as `\ifx` sees it.  Primitives and
elements are compared by name, definitions by what they are replaced by. -/
def same : Command → Command → Bool
  | .primitive left _, .primitive right _ => left == right
  | .element left, .element right => left.name == right.name
  | .definition left, .definition right => left.same right
  | .environment left opening closing, .environment right opening' closing' =>
      left == right && opening.same opening' && closing.same closing'
  | .switch left _, .switch right _ => left == right
  | .switchSetter left state, .switchSetter right state' => left == right && state == state'
  | .printedCounter left template, .printedCounter right template' =>
      left == right && template.text == template'.text
  | .character left, .character right => left == right
  | .mathCharacter left, .mathCharacter right => left == right
  | .register left, .register right => left == right
  | .unrecognized _, .unrecognized _ => true
  | _, _ => false

/-- A number in hexadecimal digits. -/
def hexadecimal (number : Nat) : String :=
  String.ofList ((Nat.toDigits 16 number).map Char.toUpper)

/-- The command in words, as the meaning of the given name. -/
def meaning (name : String) : Command → String
  | .primitive own _ => "\\" ++ own
  | .element shape => "\\" ++ shape.name
  | .definition rule => rule.meaning
  | .environment own _ _ => "environment:" ++ own
  | .switch _ state => if state then "\\iftrue" else "\\iffalse"
  | .switchSetter target state => "macro:->\\" ++ target ++ (if state then "true" else "false")
  | .printedCounter counter _ => "macro:->\\arabic\x7b" ++ counter ++ "\x7d"
  | .character value => "\\char\"" ++ hexadecimal value.toNat
  | .mathCharacter value => "\\mathchar\"" ++ hexadecimal value.toNat
  | .register own => "\\" ++ own
  | .unrecognized _ => "undefined (\\" ++ name ++ ")"

end Command

end TexTree
