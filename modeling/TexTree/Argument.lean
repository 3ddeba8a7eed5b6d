import TexTree.Text.Blank
import TexTree.Text.Quoted
import TexTree.Text.Span
import TexTree.Text.Word

/-!
# Argument specifications

A command that becomes an element of the document declares its arguments by a
short text such as `* [ toc ] title`: modifier characters, an equals sign,
optional arguments between brackets, required arguments, and the word `self` for
the argument that becomes the content of the element.  A name may be followed by
a type, a delimiter in parentheses and the type of the items that the delimiter
separates.

This module reads such texts.  What an argument of each type does is the
business of the interpreter.
-/

namespace TexTree

/-- What an argument is turned into. -/
inductive ArgumentType where
  /-- A part of the document. -/
  | fragment
  | text
  | control
  /-- A label for the element that was numbered last. -/
  | label
  /-- A reference to a label. -/
  | reference
  /-- The tokens as they are. -/
  | tokens
  | list
  | dictionary
  | dimensionGroup
  | integerGroup
  | floatGroup
  | dimension
  | mathDimension
  | glue
  | mathGlue
  | number
  | token
  | expandedToken
  /-- Everything before the next opening brace. -/
  | untilBrace
  /-- Expanded tokens up to the next space. -/
  | word
  /-- A group in which some special characters are ordinary ones. -/
  | address
  deriving DecidableEq, Repr, Inhabited

namespace ArgumentType

/-- The keywords of the types. -/
def keywords : List (String × ArgumentType) :=
  [("str", .text), ("chr", .text), ("char", .text), ("cs", .control), ("label", .label),
    ("id", .label), ("ref", .reference), ("idref", .reference), ("nox", .tokens),
    ("list", .list), ("dict", .dictionary), ("dimen", .dimensionGroup),
    ("length", .dimensionGroup), ("number", .integerGroup), ("count", .integerGroup),
    ("int", .integerGroup), ("float", .floatGroup), ("double", .floatGroup),
    ("Dimen", .dimension), ("Length", .dimension), ("MuDimen", .mathDimension),
    ("MuLength", .mathDimension), ("Glue", .glue), ("Skip", .glue), ("MuGlue", .mathGlue),
    ("MuSkip", .mathGlue), ("Number", .number), ("Int", .number), ("Count", .number),
    ("Tok", .token), ("Token", .token), ("XTok", .expandedToken), ("XToken", .expandedToken),
    ("Args", .untilBrace), ("any", .word), ("url", .address)]

/-- The type that a keyword names. -/
def ofKeyword? (keyword : String) : Option ArgumentType := keywords.lookup keyword

/-- Whether an argument of the type is read directly rather than as a group. -/
def isDirect : ArgumentType → Bool
  | .dimension | .mathDimension | .glue | .mathGlue | .number | .token | .expandedToken
  | .untilBrace | .word => true
  | _ => false

end ArgumentType

/-- How an argument is delimited. -/
inductive ArgumentKind where
  | required
  | bracketed (opening closing : Char)
  /-- One of the given characters. -/
  | modifier (characters : String)
  | equals
  /-- The content of the element. -/
  | content
  deriving DecidableEq, Repr, Inhabited

/-- One argument of an element. -/
structure Argument where
  name : String
  kind : ArgumentKind
  type : ArgumentType
  /-- What separates the items of a list or dictionary. -/
  delimiter : Char
  /-- The type of the items of a list or dictionary. -/
  itemType : Option ArgumentType
  deriving DecidableEq, Repr, Inhabited

/-- Why a text is no argument specification. -/
inductive ArgumentError where
  | lateModifier (modifier : Char)
  | unexpected (item : Char)
  | unknownType (keyword : String)
  deriving DecidableEq, Repr, Inhabited

/-- The fault in words. -/
def ArgumentError.message : ArgumentError → String
  | .lateModifier modifier =>
      "modifier " ++ String.singleton modifier ++ " must precede all other arguments"
  | .unexpected item => "unexpected " ++ Text.quoted (String.singleton item)
  | .unknownType keyword => "unknown argument type " ++ keyword

namespace Argument

/-- A part of a specification: a name with what belongs to it, or one character
that is not part of a word. -/
inductive Item where
  | name (name : String) (type : Option String) (delimiter : Option Char)
      (itemType : Option String)
  | symbol (character : Char)
  deriving DecidableEq, Repr, Inhabited

/-- A colon and a word, and what follows them. -/
def typeMark? : List Char → Option (String × List Char)
  | ':' :: rest =>
      match rest.takeWhile Text.isWord with
      | [] => none
      | word => some (String.ofList word, rest.dropWhile Text.isWord)
  | _ => none

/-- A delimiter in parentheses, and what follows it. -/
def delimiterMark? : List Char → Option (Char × List Char)
  | '(' :: character :: ')' :: rest =>
      if Text.isBlank character then none else some (character, rest)
  | _ => none

/-- What may follow a name: a type, a delimiter and the type of the items. -/
def nameItem (name : String) (behind : List Char) : Item × List Char :=
  match typeMark? behind with
  | none => (.name name none none none, behind)
  | some (type, behind) =>
      let (delimiter, behind) :=
        match delimiterMark? behind with
        | some (character, behind) => (some character, behind)
        | none => (none, behind)
      match typeMark? behind with
      | some (itemType, behind) => (.name name (some type) delimiter (some itemType), behind)
      | none => (.name name (some type) delimiter none, behind)

theorem length_typeMark? {text rest : List Char} {word : String}
    (found : typeMark? text = some (word, rest)) : rest.length ≤ text.length := by
  unfold typeMark? at found
  split at found
  · next tail =>
      split at found
      · simp at found
      · simp only [Option.some.injEq, Prod.mk.injEq] at found
        obtain ⟨_, rfl⟩ := found
        have shorter := Text.length_dropWhile_le Text.isWord tail
        simp only [List.length_cons]
        omega
  · simp at found

theorem length_delimiterMark? {text rest : List Char} {character : Char}
    (found : delimiterMark? text = some (character, rest)) : rest.length ≤ text.length := by
  unfold delimiterMark? at found
  split at found
  · split at found
    · simp at found
    · simp only [Option.some.injEq, Prod.mk.injEq] at found
      obtain ⟨_, rfl⟩ := found
      simp only [List.length_cons]
      omega
  · simp at found

theorem length_nameItem (name : String) (behind : List Char) :
    (nameItem name behind).2.length ≤ behind.length := by
  unfold nameItem
  split
  · simp
  · next type rest typed =>
      have first := length_typeMark? typed
      cases marked : delimiterMark? rest with
      | none =>
          simp only
          split
          · next last =>
              have third := length_typeMark? last
              simp only
              omega
          · simpa using first
      | some pair =>
          obtain ⟨character, rest'⟩ := pair
          have second := length_delimiterMark? marked
          simp only
          split
          · next last =>
              have third := length_typeMark? last
              simp only
              omega
          · simp only
            omega

/-- Cut a specification into its parts. -/
def items (text : List Char) : List Item :=
  match text with
  | [] => []
  | character :: rest =>
      if Text.isWord character then
        match _named : nameItem (String.ofList (character :: rest.takeWhile Text.isWord))
            (rest.dropWhile Text.isWord) with
        | (item, behind) => item :: items behind
      else .symbol character :: items rest
termination_by text.length
decreasing_by
  · have first := Text.length_dropWhile_le Text.isWord rest
    have second := length_nameItem (String.ofList (character :: rest.takeWhile Text.isWord))
      (rest.dropWhile Text.isWord)
    rw [_named] at second
    simp only [List.length_cons] at second ⊢
    omega
  · simp

/-- The type that a keyword names, or a complaint about it. -/
def typeOf (keyword : String) : Except ArgumentError ArgumentType :=
  match ArgumentType.ofKeyword? keyword with
  | some type => .ok type
  | none => .error (.unknownType keyword)

/-- The argument that a name item declares inside or outside of brackets. -/
def ofName (brackets : Option (Char × Char)) (name : String) (type : Option String)
    (delimiter : Option Char) (itemType : Option String) : Except ArgumentError Argument := do
  if name = "self" then
    return ⟨"self", .content, .fragment, ',', none⟩
  let argumentType ← match type with
    | none => pure ArgumentType.fragment
    | some keyword => typeOf keyword
  let argumentItemType ← match itemType with
    | none => pure none
    | some keyword => some <$> typeOf keyword
  let kind := match brackets with
    | some (opening, closing) => ArgumentKind.bracketed opening closing
    | none => ArgumentKind.required
  return ⟨name, kind, argumentType, delimiter.getD ',', argumentItemType⟩

/-- Add a modifier character, which may follow only other modifiers. -/
def addModifier (reversed : List Argument) (character : Char) :
    Except ArgumentError (List Argument) :=
  match reversed with
  | [] => .ok [⟨"modifier", .modifier (String.singleton character), .text, ',', none⟩]
  | last :: rest =>
      match last.kind with
      | .modifier characters =>
          .ok ({ last with kind := .modifier (characters ++ String.singleton character) } :: rest)
      | _ => .error (.lateModifier character)

/-- Collect the arguments that the parts of a specification declare, given those
before them in reverse order and the brackets that are open. -/
def ofItems (reversed : List Argument) (brackets : Option (Char × Char)) :
    List Item → Except ArgumentError (List Argument)
  | [] => .ok reversed.reverse
  | .name name type delimiter itemType :: rest => do
      let argument ← ofName brackets name type delimiter itemType
      ofItems (argument :: reversed) brackets rest
  | .symbol character :: rest =>
      if Text.isBlank character then ofItems reversed brackets rest
      else
        match character with
        | '*' | '+' | '-' | '!' => do
            let modified ← addModifier reversed character
            ofItems modified brackets rest
        | '=' => ofItems (⟨"equals", .equals, .text, ',', none⟩ :: reversed) brackets rest
        | '[' => ofItems reversed (some ('[', ']')) rest
        | '(' => ofItems reversed (some ('(', ')')) rest
        | '<' => ofItems reversed (some ('<', '>')) rest
        | ']' | ')' | '>' => ofItems reversed none rest
        | other => .error (.unexpected other)

/-- Read an argument specification. -/
def ofSpecification (text : String) : Except ArgumentError (List Argument) :=
  ofItems [] none (items text.toList)

end Argument

end TexTree
