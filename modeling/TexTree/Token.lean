import TexTree.Category
import TexTree.Text.Alphabetic

/-!
# Tokens

A token is a text with a category and, where it was read from a source, a
position.  A control sequence has the category of the escape character and its
own name as text; an active character is the control sequence whose name is the
character behind a fixed mark.
-/

namespace TexTree

/-- A place in a source, with lines and columns counted from one. -/
structure Position where
  file : String
  line : Nat
  column : Nat
  deriving DecidableEq, Repr, Inhabited

/-- The place as it is written in messages. -/
def Position.text (position : Position) : String :=
  position.file ++ " l. " ++ toString position.line ++ " c. " ++ toString position.column

/-- The part of a text behind a mark at its start. -/
def Text.afterMark? (mark text : String) : Option String :=
  if mark.toList.isPrefixOf text.toList then
    some (String.ofList (text.toList.drop mark.toList.length))
  else none

/-- The smallest unit of input. -/
structure Token where
  text : String
  category : Category
  position : Option Position := none
  deriving DecidableEq, Repr, Inhabited

namespace Token

/-- Whether two tokens have the same text and category, wherever they stand. -/
def same (left right : Token) : Bool :=
  left.category == right.category && left.text == right.text

/-- Whether two lists hold the same tokens, wherever these stand. -/
def sameList : List Token → List Token → Bool
  | [], [] => true
  | left :: lefts, right :: rights => left.same right && sameList lefts rights
  | _, _ => false

/-- The mark before the character in the name of an active character. -/
def activeMark : String := "active::"

/-- The control sequence with the given name. -/
def control (name : String) : Token := ⟨name, .escape, none⟩

/-- A token for one character. -/
def ofChar (character : Char) (category : Category) : Token :=
  ⟨String.singleton character, category, none⟩

/-- A letter. -/
def letter (character : Char) : Token := ofChar character .letter

/-- An ordinary character. -/
def other (character : Char) : Token := ofChar character .other

/-- The space token. -/
def space : Token := ⟨" ", .space, none⟩

/-- The brace that opens a group. -/
def beginGroup : Token := ⟨"\x7b", .beginGroup, none⟩

/-- The brace that closes a group. -/
def endGroup : Token := ⟨"\x7d", .endGroup, none⟩

/-- The control sequence that stands for an active character. -/
def active (character : Char) : Token := control (activeMark ++ String.singleton character)

/-- The marker that ends a token list read in place of the input. -/
def endOfList (tag : String) : Token := ⟨tag, .endOfList, none⟩

/-- Letters, spaces and other characters for a text, as `\arabic` produces
them. -/
def ofText (text : String) : List Token :=
  text.toList.map fun character =>
    if character == ' ' then space
    else if character.isAlpha then letter character
    else other character

/-- Spaces and other characters for a text, as `\string` produces them. -/
def ofPlainText (text : String) : List Token :=
  text.toList.map fun character => if character == ' ' then space else other character

/-- The token at another place. -/
def at? (token : Token) (position : Option Position) : Token := { token with position }

/-- Whether the token is a control sequence. -/
def isControl (token : Token) : Bool := token.category == .escape

/-- Whether the token is the control sequence with the given name. -/
def isNamed (token : Token) (name : String) : Bool := token.isControl && token.text == name

/-- The first character of the text. -/
def char? (token : Token) : Option Char := token.text.toList.head?

/-- The character that the name of an active character ends with. -/
def activeChar? (token : Token) : Option String := Text.afterMark? activeMark token.text

/-- Whether the token is the given character, and neither a control sequence nor
a marker. -/
def isChar (token : Token) (character : Char) : Bool :=
  token.category != .escape && token.category != .endOfList && token.category != .frozen &&
    token.text.toList == [character]

/-- The name under which the meaning of the token is looked up.  Braces and the
special characters of formulas have fixed names. -/
def commandName? (token : Token) : Option String :=
  match token.category with
  | .escape => some token.text
  | .beginGroup => some "bgroup"
  | .endGroup => some "egroup"
  | .mathShift => some "active::$"
  | .alignmentTab => some "active::&"
  | .superscript => some "active::^"
  | .subscript => some "active::_"
  | _ => none

/-- Whether the token is a control sequence whose name ends with a letter, so
that a letter behind it would be read as part of the name. -/
def isControlWord (token : Token) : Bool :=
  token.isControl && token.activeChar?.isNone &&
    match token.text.toList.getLast? with
    | some last => Text.isAlphabetic last
    | none => false

/-- The text of a token in messages: control sequences have a backslash, and
markers are invisible. -/
def display (token : Token) : String :=
  match token.category with
  | .escape => token.activeChar?.getD ("\\" ++ token.text)
  | .endOfList => ""
  | _ => token.text

/-- The text of a list of tokens. -/
def displayList (tokens : List Token) : String :=
  String.join (tokens.map display)

/-- The source of a single token: a paragraph break is a blank line, and a
control word is followed by a space. -/
def source (token : Token) : String :=
  if token.isNamed "par" then "\n\n"
  else if token.isControlWord then token.display ++ " "
  else token.display

/-- Whether a control word before the token needs a space. -/
def startsWithLetter (token : Token) : Bool :=
  token.category == .letter ||
    (token.category != .escape &&
      match token.char? with
      | some character => Text.isAlphabetic character
      | none => false)

/-- The source of a list of tokens.  A control word is followed by a space only
where the next token starts with a letter. -/
def sourceList : List Token → String
  | [] => ""
  | token :: rest =>
      let spelling :=
        if token.isControlWord && token.text != "par" then
          match rest with
          | next :: _ =>
              if next.startsWithLetter then "\\" ++ token.text ++ " " else "\\" ++ token.text
          | [] => "\\" ++ token.text
        else token.source
      spelling ++ sourceList rest

/-- The category and the quoted text. -/
def summary (token : Token) : String :=
  token.category.name ++ "(" ++ Text.quoted token.text ++ ")"

end Token

end TexTree
