import TexTree.Text.Quoted

/-!
# Category codes

Every character has a category that decides what becomes of it when a text is
cut into tokens.  A category table keeps a set of characters for each category,
in the order in which they were assigned.  The sets are searched one after the
other, and a character that is in none of them is an ordinary one.
-/

namespace TexTree

/-- The category of a character or of a token.  The last two are categories of
tokens only. -/
inductive Category where
  | escape
  | beginGroup
  | endGroup
  | mathShift
  | alignmentTab
  | endOfLine
  | parameter
  | superscript
  | subscript
  | ignored
  | space
  | letter
  | other
  | active
  | comment
  | invalid
  /-- A control sequence that must not be expanded. -/
  | frozen
  /-- The end of a token list that is read in place of the input. -/
  | endOfList
  deriving DecidableEq, Repr, Inhabited

namespace Category

/-- The sixteen categories that a character can have, in the order of their
codes. -/
def ofCharacters : List Category :=
  [.escape, .beginGroup, .endGroup, .mathShift, .alignmentTab, .endOfLine, .parameter,
    .superscript, .subscript, .ignored, .space, .letter, .other, .active, .comment, .invalid]

/-- The number of the category. -/
def code : Category → Nat
  | .escape => 0
  | .beginGroup => 1
  | .endGroup => 2
  | .mathShift => 3
  | .alignmentTab => 4
  | .endOfLine => 5
  | .parameter => 6
  | .superscript => 7
  | .subscript => 8
  | .ignored => 9
  | .space => 10
  | .letter => 11
  | .other => 12
  | .active => 13
  | .comment => 14
  | .invalid => 15
  | .frozen => 100
  | .endOfList => 101

/-- The category of a character with the given number. -/
def ofCode? (number : Nat) : Option Category := ofCharacters[number]?

/-- The name of the category. -/
def name : Category → String
  | .escape => "Escape"
  | .beginGroup => "BeginGroup"
  | .endGroup => "EndGroup"
  | .mathShift => "MathShift"
  | .alignmentTab => "AlignmentTab"
  | .endOfLine => "EOL"
  | .parameter => "Parameter"
  | .superscript => "Superscript"
  | .subscript => "Subscript"
  | .ignored => "Ignored"
  | .space => "Space"
  | .letter => "Letter"
  | .other => "Other"
  | .active => "Active"
  | .comment => "Comment"
  | .invalid => "Invalid"
  | .frozen => "Expanded"
  | .endOfList => "EndTokens"

end Category

/-- Sixteen sets of characters, each in the order of the assignments.  The set
of a category stands at the place of its code. -/
structure CategoryTable where
  sets : List (List Char)
  length_sets : sets.length = 16
  deriving Repr

namespace CategoryTable

/-- The table in which every character is an ordinary one. -/
def empty : CategoryTable := ⟨List.replicate 16 [], List.length_replicate⟩

instance : Inhabited CategoryTable := ⟨empty⟩

/-- The characters of a category, in the order of their assignment.  The
categories of tokens have no set. -/
def characters (table : CategoryTable) (category : Category) : List Char :=
  table.sets.getD category.code []

/-- The order in which the sets are searched. -/
def lookUpOrder : List Category :=
  [.letter, .space, .endOfLine, .beginGroup, .endGroup, .escape, .superscript, .subscript,
    .mathShift, .alignmentTab, .comment, .active, .parameter, .ignored, .invalid]

/-- The first category in the order that has the character in its set. -/
def lookUp (order : List Category) (table : CategoryTable) (character : Char) : Category :=
  (order.find? fun category => (table.characters category).contains character).getD .other

/-- The category of a character. -/
def category (table : CategoryTable) (character : Char) : Category :=
  lookUp lookUpOrder table character

/-- Take a character out of every set. -/
def strip (table : CategoryTable) (character : Char) : CategoryTable :=
  ⟨table.sets.map (List.filter (· != character)), by rw [List.length_map, table.length_sets]⟩

/-- Add a character at the end of the set of a category. -/
def push (table : CategoryTable) (character : Char) (category : Category) : CategoryTable :=
  ⟨table.sets.modify category.code (· ++ [character]), by
    rw [List.length_modify, table.length_sets]⟩

/-- Give a character a category in place of the one it had.  Ordinary characters
are never stored. -/
def assign (table : CategoryTable) (character : Char) (category : Category) : CategoryTable :=
  let stripped := table.strip character
  if category = .other then stripped else stripped.push character category

/-- Make several assignments, the first one first. -/
def assignAll (table : CategoryTable) (assignments : List (Char × Category)) : CategoryTable :=
  assignments.foldl (fun table entry => table.assign entry.1 entry.2) table

/-- Whether two tables list the same characters under every category. -/
def agrees (left right : CategoryTable) : Bool :=
  Category.ofCharacters.all fun category => left.characters category == right.characters category

/-- The categories with their characters, as text; empty ones are left out. -/
def summary (table : CategoryTable) : String :=
  let shown := Category.ofCharacters.filter fun category => !(table.characters category).isEmpty
  let entry (category : Category) : String :=
    category.name ++ ": " ++ Text.quoted (String.ofList (table.characters category))
  "\x7b" ++ ", ".intercalate (shown.map entry) ++ "\x7d"

/-- The ASCII letters, small ones first. -/
def asciiLetters : List Char :=
  (List.range 26).map (fun index => Char.ofNat (97 + index)) ++
    (List.range 26).map (fun index => Char.ofNat (65 + index))

/-- The table in effect at the start. -/
def initial : CategoryTable :=
  (empty.assignAll
    [('\\', .escape), ('\x7b', .beginGroup), ('\x7d', .endGroup), ('$', .mathShift),
      ('&', .alignmentTab), ('\n', .endOfLine), ('\r', .endOfLine), ('#', .parameter),
      ('^', .superscript), ('_', .subscript), ('\x00', .ignored), (' ', .space), ('\t', .space),
      ('\x0c', .space), ('~', .active), ('%', .comment), ('@', .letter)]).assignAll
    (asciiLetters.map fun character => (character, .letter))

/-- The table for verbatim text, in which only blanks, line ends and letters
differ from ordinary characters. -/
def verbatim : CategoryTable :=
  (empty.assignAll [(' ', .space), ('\n', .endOfLine)]).assignAll
    (asciiLetters.map fun character => (character, .letter))

end CategoryTable

end TexTree
