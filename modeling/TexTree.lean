import TexTree.Argument
import TexTree.Builtin
import TexTree.Command
import TexTree.CommandLine
import TexTree.Counter.Template
import TexTree.Cursor
import TexTree.Decimal.Reading
import TexTree.Definition
import TexTree.Document.Basic
import TexTree.Document.Display
import TexTree.Document.Paragraph
import TexTree.Engine.Argument
import TexTree.Engine.Assignment
import TexTree.Engine.Basic
import TexTree.Engine.Condition
import TexTree.Engine.Digestion
import TexTree.Engine.Element
import TexTree.Engine.Environment
import TexTree.Engine.Execution
import TexTree.Engine.Expandable
import TexTree.Engine.Expansion
import TexTree.Engine.Files
import TexTree.Engine.Formula
import TexTree.Engine.Fragment
import TexTree.Engine.Number
import TexTree.Engine.Package
import TexTree.Fault
import TexTree.File.Stream
import TexTree.Input
import TexTree.Input.Argument
import TexTree.Input.Branch
import TexTree.Input.Call
import TexTree.Numeral
import TexTree.Quantity.Basic
import TexTree.Reference
import TexTree.Scope
import TexTree.Session
import TexTree.Table
import TexTree.Text.Blank
import TexTree.Text.Quoted
import TexTree.Text.Word
import TexTree.Token
import TexTree.Main
import TexTree.Proofs.Document.Links
import TexTree.Proofs.Document.Soundness
import TexTree.Proofs.Document.Unfolding
import TexTree.Proofs.Document.Regrouping
import TexTree.Proofs.Document.Nesting
import TexTree.Proofs.Document.Extension
import TexTree.Proofs.Engine.Regular
import TexTree.Proofs.Engine.Quiet
import TexTree.Proofs.Engine.Retaining
import TexTree.Proofs.Engine.Expanding
import TexTree.Proofs.Engine.Assigning
import TexTree.Proofs.Engine.Outcome
import TexTree.Proofs.Engine.Building
import TexTree.Proofs.Engine.Fragments
import TexTree.Proofs.Engine.Arguments
import TexTree.Proofs.Engine.Elements
import TexTree.Proofs.Engine.Carrying
import TexTree.Proofs.Engine.Digestion
import TexTree.Proofs.Engine.Session
import TexTree.Proofs.Returned
import TexTree.Proofs.Document.Gauge
import TexTree.Proofs.Document.VisibleText
import TexTree.Proofs.Engine.Reading
import TexTree.Proofs.Input.Lexing
import TexTree.Proofs.Scope.Locality
import TexTree.Proofs.Reference.Resolution
import TexTree.Proofs.Reference.Targets
import TexTree.Proofs.Reference.Confined
import TexTree.Proofs.Reference.Arguments
import TexTree.Proofs.Reference.Commands
import TexTree.Proofs.Reference.Sources
import TexTree.Proofs.Engine.Beginning
import TexTree.Proofs.Engine.Conservation
import TexTree.Proofs.Engine.Mirroring
import TexTree.Proofs.Engine.Sealed
import TexTree.Proofs.Engine.SealedReading
import TexTree.Proofs.Language.Manuscript
import TexTree.Proofs.Input.Progress
import TexTree.Proofs.Input.Lines
import TexTree.Proofs.Input.BlankLines
import TexTree.Proofs.Input.Spelling
import TexTree.Proofs.Engine.Branching
import TexTree.Proofs.Engine.Calling
import TexTree.Proofs.Document.Shape
import TexTree.Proofs.Language.Passage
import TexTree.Proofs.Language.Writing
import TexTree.Proofs.Engine.Clean
import TexTree.Proofs.Scope.Stack
import TexTree.Proofs.Scope.Belonging
import TexTree.Proofs.Scope.Relaxing
import TexTree.Proofs.Engine.FullExpansion
import TexTree.Proofs.Engine.MathShift
import TexTree.Proofs.Engine.Runaway
import TexTree.Proofs.Document.Outline
import TexTree.Proofs.Language.Family
import TexTree.Proofs.Engine.Defining
import TexTree.Proofs.Engine.Nested
import TexTree.Proofs.Engine.Bodies
import TexTree.Proofs.Language.Environments
import TexTree.Proofs.Document.Operations
import TexTree.Proofs.Document.Paragraphs
import TexTree.Proofs.Scope.Meanings
import TexTree.Proofs.Counter.Superiors
import TexTree.Proofs.Counter.Bounds
import TexTree.Proofs.Input.Guard
import TexTree.Proofs.Engine.Doubling
import TexTree.Proofs.Engine.Undoubling
import TexTree.Proofs.Engine.Recording
import TexTree.Proofs.Counter.Enumeration
import TexTree.Proofs.Engine.Numbering
import TexTree.Proofs.Engine.Counting
import TexTree.Proofs.Engine.Collecting
import TexTree.Proofs.Engine.Listing
import TexTree.Proofs.Language.Enumerations
import TexTree.Proofs.Counter.Cycles
import TexTree.Proofs.Counter.Resetting
import TexTree.Proofs.Engine.Constants
import TexTree.Proofs.Engine.Registers
import TexTree.Proofs.Input.Verbatim
import TexTree.Proofs.Language.Specification
import TexTree.Proofs.Engine.CategoryCodes
import TexTree.Proofs.Engine.Splitting
import TexTree.Proofs.Engine.Dictionaries
import TexTree.Proofs.Counter.Numerals
import TexTree.Proofs.Counter.Templates
import TexTree.Proofs.Input.Agreement
import TexTree.Proofs.Engine.Lookahead
import TexTree.Proofs.Engine.Fills
