import TexTree.Argument

/-!
# Written argument specifications

An argument specification can be written for every list of arguments that has at most one
modifier, in front of all others (`Specification`).  Its entries are separated by spaces, and
brackets may have spaces inside.  Reading it gives exactly these arguments
(`Specification.arguments_read`).

What is read of an entry depends on the character behind it, which must not continue a word
or start a type or a delimiter (`Argument.Ends`).  The delimiter of a list can be any character
that is not blank, and so also a colon, a bracket or a modifier character.
-/

namespace TexTree

/-! ## Specifications -/

/-- The characters that a modifier consists of. -/
def modifierCharacters : List Char := ['*', '+', '-', '!']

/-- Some modifier characters. -/
structure Modifier where
  characters : List Char
  nonempty : characters ≠ []
  isModifier : ∀ character ∈ characters, character ∈ modifierCharacters

/-- An ASCII word that names an argument. -/
structure ArgumentName where
  characters : List Char
  nonempty : characters ≠ []
  isWord : ∀ character ∈ characters, character.isAlphanum ∨ character = '_'
  notSelf : String.ofList characters ≠ "self"

/-- A keyword and the type that it names. -/
structure TypeKeyword where
  text : String
  type : ArgumentType
  isKeyword : (text, type) ∈ ArgumentType.keywords

/-- A character that can separate the items of a list. -/
structure Delimiter where
  character : Char
  visible : Text.isBlank character = false

/-- What may be written behind a name. -/
structure TypeClause where
  keyword : TypeKeyword
  delimiter : Option Delimiter
  itemKeyword : Option TypeKeyword

/-- The brackets around an optional argument. -/
inductive Brackets where
  | square
  | round
  | angle
  deriving DecidableEq, Repr

namespace Brackets

def opening : Brackets → Char
  | square => '['
  | round => '('
  | angle => '<'

def closing : Brackets → Char
  | square => ']'
  | round => ')'
  | angle => '>'

/-- The brackets as they are kept while they are open. -/
def pair (brackets : Brackets) : Char × Char := (brackets.opening, brackets.closing)

end Brackets

/-- An argument as it is written. -/
inductive Entry where
  | equals
  | content
  | named (name : ArgumentName) (brackets : Option Brackets) (clause : Option TypeClause)

/-- An argument specification as it is written. -/
structure Specification where
  modifier : Option Modifier
  entries : List Entry

namespace TypeClause

/-- The clause as it is written behind a name. -/
def written (clause : TypeClause) : List Char :=
  ':' :: (clause.keyword.text.toList ++
    (clause.delimiter.elim [] (fun delimiter => ['(', delimiter.character, ')']) ++
      clause.itemKeyword.elim [] (fun keyword => ':' :: keyword.text.toList)))

end TypeClause

namespace Entry

/-- The argument that is declared. -/
def argument : Entry → Argument
  | equals => ⟨"equals", .equals, .text, ',', none⟩
  | content => ⟨"self", .content, .fragment, ',', none⟩
  | named name brackets clause =>
      { name := String.ofList name.characters
        kind := brackets.elim .required fun brackets =>
          .bracketed brackets.opening brackets.closing
        type := clause.elim .fragment fun clause => clause.keyword.type
        delimiter := (clause.bind TypeClause.delimiter).elim ',' Delimiter.character
        itemType := (clause.bind TypeClause.itemKeyword).map TypeKeyword.type }

/-- The entry as it is written, with so many spaces inside of its brackets. -/
def written (padding : Nat) : Entry → List Char
  | equals => ['=']
  | content => ['s', 'e', 'l', 'f']
  | named name brackets clause =>
      let inside := name.characters ++ clause.elim [] TypeClause.written
      brackets.elim inside fun brackets =>
        brackets.opening :: (List.replicate padding ' ' ++
          (inside ++ (List.replicate padding ' ' ++ [brackets.closing])))

end Entry

/-- The argument that can be one of these characters. -/
def Argument.modifying (characters : List Char) : Argument :=
  ⟨"modifier", .modifier (String.ofList characters), .text, ',', none⟩

/-- The argument that a modifier declares. -/
def Modifier.argument (modifier : Modifier) : Argument := Argument.modifying modifier.characters

namespace Specification

/-- The arguments that are declared. -/
def arguments (specification : Specification) : List Argument :=
  specification.modifier.toList.map Modifier.argument ++ specification.entries.map Entry.argument

/-- The specification as it is written, with one space and so many more between two entries, and
with so many spaces inside of brackets. -/
def written (gap padding : Nat) (specification : Specification) : String :=
  String.ofList ((List.replicate (gap + 1) ' ').intercalate
    (specification.modifier.toList.map Modifier.characters ++
      specification.entries.map (Entry.written padding)))

end Specification

/-! ## Words -/

namespace Argument

variable {word behind text : List Char} {character : Char}

/-- What follows a word does not continue it, and starts neither a type nor a delimiter. -/
def Ends (behind : List Char) : Prop :=
  ∀ character ∈ behind.head?, Text.isWord character = false ∧ character ≠ ':' ∧ character ≠ '('

@[simp] theorem ofItems_nil (reversed : List Argument) (brackets : Option (Char × Char)) :
    ofItems reversed brackets [] = .ok reversed.reverse := by
  rw [ofItems]

theorem isWord_of_ascii (isAscii : character.isAlphanum ∨ character = '_') :
    Text.isWord character = true := by
  rcases isAscii with isAlphanum | rfl
  · exact Text.isWord_of_isAlphanum isAlphanum
  · decide

theorem typeMark?_word (nonempty : word ≠ [])
    (isWord : ∀ character ∈ word, Text.isWord character = true)
    (noWord : ∀ character ∈ behind.head?, Text.isWord character = false) :
    typeMark? (':' :: (word ++ behind)) = some (String.ofList word, behind) := by
  obtain ⟨first, more, rfl⟩ := List.exists_cons_of_ne_nil nonempty
  simp only [typeMark?, Text.takeWhile_word isWord noWord, Text.dropWhile_word isWord noWord]

theorem typeMark?_eq_none (noColon : ∀ character ∈ text.head?, character ≠ ':') :
    typeMark? text = none := by
  cases text with
  | nil => rfl
  | cons first rest =>
      have notColon : first ≠ ':' := noColon first rfl
      simp [typeMark?, notColon]

theorem delimiterMark?_eq_none (noBracket : ∀ character ∈ text.head?, character ≠ '(') :
    delimiterMark? text = none := by
  cases text with
  | nil => rfl
  | cons first rest =>
      have notBracket : first ≠ '(' := noBracket first rfl
      simp [delimiterMark?, notBracket]

theorem Ends.noWord (ends : Ends behind) :
    ∀ character ∈ behind.head?, Text.isWord character = false :=
  fun character isNext => (ends character isNext).1

theorem Ends.typeMark? (ends : Ends behind) : Argument.typeMark? behind = none :=
  typeMark?_eq_none fun character isNext => (ends character isNext).2.1

theorem Ends.delimiterMark? (ends : Ends behind) : Argument.delimiterMark? behind = none :=
  delimiterMark?_eq_none fun character isNext => (ends character isNext).2.2

/-- A word and what is written behind it make one part. -/
theorem items_word (nonempty : word ≠ [])
    (isWord : ∀ character ∈ word, Text.isWord character = true)
    (noWord : ∀ character ∈ behind.head?, Text.isWord character = false) :
    items (word ++ behind) =
      (nameItem (String.ofList word) behind).1 ::
        items (nameItem (String.ofList word) behind).2 := by
  obtain ⟨first, more, rfl⟩ := List.exists_cons_of_ne_nil nonempty
  have isFirst : Text.isWord first = true := isWord first List.mem_cons_self
  have isMore : ∀ character ∈ more, Text.isWord character = true := fun character member =>
    isWord character (List.mem_cons_of_mem _ member)
  rw [List.cons_append, items, if_pos isFirst]
  simp only [Text.takeWhile_word isMore noWord, Text.dropWhile_word isMore noWord]

theorem items_symbol (noWord : Text.isWord character = false) (text : List Char) :
    items (character :: text) = .symbol character :: items text := by
  rw [items, if_neg (by simp [noWord])]

end Argument

/-! ## Keywords and clauses -/

namespace TypeKeyword

variable (keyword : TypeKeyword)

theorem nonempty : keyword.text.toList ≠ [] := by
  have all : (ArgumentType.keywords.all fun entry => !entry.1.toList.isEmpty) = true := by decide
  simpa using List.all_eq_true.mp all _ keyword.isKeyword

theorem isWord : ∀ character ∈ keyword.text.toList, Text.isWord character = true := by
  have all : (ArgumentType.keywords.all fun entry =>
      entry.1.toList.all Char.isAlphanum) = true := by decide
  intro character member
  have isAlphanum := List.all_eq_true.mp (List.all_eq_true.mp all _ keyword.isKeyword) _ member
  exact Argument.isWord_of_ascii (.inl isAlphanum)

/-- A keyword names one type only. -/
theorem typeOf_text : Argument.typeOf keyword.text = .ok keyword.type := by
  have all : (ArgumentType.keywords.all fun entry =>
      ArgumentType.ofKeyword? entry.1 == some entry.2) = true := by decide
  have named : ArgumentType.ofKeyword? keyword.text = some keyword.type := by
    simpa using List.all_eq_true.mp all _ keyword.isKeyword
  rw [Argument.typeOf, named]

/-- A keyword behind a colon is read up to a character that does not belong to a word. -/
theorem typeMark?_written {behind : List Char}
    (noWord : ∀ character ∈ behind.head?, Text.isWord character = false) :
    Argument.typeMark? (':' :: (keyword.text.toList ++ behind)) = some (keyword.text, behind) := by
  rw [Argument.typeMark?_word keyword.nonempty keyword.isWord noWord, String.ofList_toList]

end TypeKeyword

namespace TypeClause

open Argument

variable {behind : List Char}

/-- What is written behind a name is read with it. -/
theorem nameItem_written (name : String) (clause : TypeClause) (ends : Ends behind) :
    nameItem name (clause.written ++ behind) =
      (.name name (some clause.keyword.text)
        (clause.delimiter.map Delimiter.character)
        (clause.itemKeyword.map TypeKeyword.text), behind) := by
  obtain ⟨keyword, delimiter, itemKeyword⟩ := clause
  have colon : Text.isWord ':' = false := by decide
  have bracket : Text.isWord '(' = false := by decide
  cases delimiter with
  | none =>
      cases itemKeyword with
      | none =>
          simp [nameItem, written, keyword.typeMark?_written ends.noWord, ends.delimiterMark?,
            ends.typeMark?]
      | some items =>
          simp [nameItem, written, keyword.typeMark?_written (Text.noWord_of_head colon),
            items.typeMark?_written ends.noWord, delimiterMark?]
  | some delimiter =>
      have visible := delimiter.visible
      cases itemKeyword with
      | none =>
          simp [nameItem, written, keyword.typeMark?_written (Text.noWord_of_head bracket),
            delimiterMark?, visible, ends.typeMark?]
      | some items =>
          simp [nameItem, written, keyword.typeMark?_written (Text.noWord_of_head bracket),
            delimiterMark?, visible, items.typeMark?_written ends.noWord]

end TypeClause

/-! ## Reading -/

namespace Argument

variable {behind text : List Char} {character : Char} {reversed : List Argument}
  {brackets : Option (Char × Char)}

/-- The arguments that a text declares, behind those that are given in reverse, where these
brackets are open. -/
def readFrom (reversed : List Argument) (brackets : Option (Char × Char)) (text : List Char) :
    Except ArgumentError (List Argument) :=
  ofItems reversed brackets (items text)

theorem readFrom_word {word : List Char} (nonempty : word ≠ [])
    (isWord : ∀ character ∈ word, Text.isWord character = true)
    (noWord : ∀ character ∈ behind.head?, Text.isWord character = false) :
    readFrom reversed brackets (word ++ behind) =
      ofItems reversed brackets
        ((nameItem (String.ofList word) behind).1 ::
          items (nameItem (String.ofList word) behind).2) := by
  rw [readFrom, items_word nonempty isWord noWord]

theorem readFrom_symbol (noWord : Text.isWord character = false) (text : List Char) :
    readFrom reversed brackets (character :: text) =
      ofItems reversed brackets (.symbol character :: items text) := by
  rw [readFrom, items_symbol noWord]

theorem readFrom_space (text : List Char) :
    readFrom reversed brackets (' ' :: text) = readFrom reversed brackets text := by
  have blank : Text.isBlank ' ' = true := by decide
  rw [readFrom_symbol (by decide)]
  simp only [ofItems, blank, if_true, readFrom]

theorem readFrom_spaces (count : Nat) (text : List Char) :
    readFrom reversed brackets (List.replicate count ' ' ++ text) =
      readFrom reversed brackets text := by
  induction count with
  | zero => rfl
  | succ count ih =>
      rw [List.replicate_succ, List.cons_append, readFrom_space]
      exact ih

theorem readFrom_opening (shape : Brackets) (text : List Char) :
    readFrom reversed brackets (shape.opening :: text) =
      readFrom reversed (some shape.pair) text := by
  cases shape <;> rw [Brackets.opening, readFrom_symbol (by decide), ofItems,
    if_neg (by decide)] <;> rfl

theorem readFrom_closing (shape : Brackets) (text : List Char) :
    readFrom reversed brackets (shape.closing :: text) = readFrom reversed none text := by
  cases shape <;> rw [Brackets.closing, readFrom_symbol (by decide), ofItems,
    if_neg (by decide)] <;> rfl

theorem readFrom_equals (text : List Char) :
    readFrom reversed brackets ('=' :: text) =
      readFrom (Entry.equals.argument :: reversed) brackets text := by
  rw [readFrom_symbol (by decide), ofItems, if_neg (by decide)]
  rfl

/-- A modifier character is added to those in front of it. -/
theorem readFrom_modifierCharacter (isModifier : character ∈ modifierCharacters)
    {modified : List Argument} (added : addModifier reversed character = .ok modified)
    (text : List Char) :
    readFrom reversed brackets (character :: text) = readFrom modified brackets text := by
  simp only [modifierCharacters, List.mem_cons, List.not_mem_nil, or_false] at isModifier
  rcases isModifier with rfl | rfl | rfl | rfl <;>
    rw [readFrom_symbol (by decide), ofItems, if_neg (by decide), added] <;> rfl

/-- The word `self` declares the content. -/
theorem ofName_self (type : Option String) (delimiter : Option Char) (itemType : Option String) :
    ofName brackets "self" type delimiter itemType = .ok Entry.content.argument := rfl

/-- Any other word declares the argument that it names. -/
theorem ofName_entry (name : ArgumentName) (shape : Option Brackets)
    (clause : Option TypeClause) :
    ofName (shape.map Brackets.pair)
        (String.ofList name.characters)
        (clause.map fun clause => clause.keyword.text)
        ((clause.bind TypeClause.delimiter).map Delimiter.character)
        ((clause.bind TypeClause.itemKeyword).map TypeKeyword.text) =
      .ok (Entry.named name shape clause).argument := by
  have notSelf : String.ofList name.characters ≠ "self" := name.notSelf
  unfold ofName
  rw [if_neg notSelf]
  cases clause with
  | none => cases shape <;> rfl
  | some clause =>
      obtain ⟨keyword, delimiter, itemKeyword⟩ := clause
      cases itemKeyword with
      | none =>
          simp only [Option.map_some, keyword.typeOf_text]
          cases shape <;> cases delimiter <;> rfl
      | some items =>
          simp only [Option.map_some, Option.bind_some, keyword.typeOf_text, items.typeOf_text]
          cases shape <;> cases delimiter <;> rfl

/-- A name without a clause stands for itself. -/
theorem nameItem_bare (name : String) (ends : Ends behind) :
    nameItem name behind = (.name name none none none, behind) := by
  simp only [nameItem, ends.typeMark?]

/-- A name with its clause declares one argument. -/
theorem readFrom_named (reversed : List Argument) (name : ArgumentName) (shape : Option Brackets)
    (clause : Option TypeClause) (ends : Ends behind) :
    readFrom reversed (shape.map Brackets.pair)
        (name.characters ++ (clause.elim [] TypeClause.written ++ behind)) =
      readFrom ((Entry.named name shape clause).argument :: reversed)
        (shape.map Brackets.pair) behind := by
  have isWord : ∀ character ∈ name.characters, Text.isWord character = true :=
    fun character member => isWord_of_ascii (name.isWord character member)
  have declared := ofName_entry name shape clause
  cases clause with
  | none =>
      rw [Option.elim_none, List.nil_append,
        readFrom_word name.nonempty isWord ends.noWord, nameItem_bare _ ends, ofItems]
      simp only [Option.map_none, Option.bind_none] at declared
      rw [declared]
      rfl
  | some clause =>
      have noWord : ∀ character ∈ (clause.written ++ behind).head?,
          Text.isWord character = false :=
        Text.noWord_of_head (show Text.isWord ':' = false by decide)
      rw [Option.elim_some, readFrom_word name.nonempty isWord noWord,
        clause.nameItem_written _ ends, ofItems]
      simp only [Option.map_some, Option.bind_some] at declared
      rw [declared]
      rfl

/-- The word `self` stands for the content. -/
theorem readFrom_content (ends : Ends behind) :
    readFrom reversed brackets (['s', 'e', 'l', 'f'] ++ behind) =
      readFrom (Entry.content.argument :: reversed) brackets behind := by
  have isSelf : String.ofList ['s', 'e', 'l', 'f'] = "self" := rfl
  have isWord : ∀ character ∈ ['s', 'e', 'l', 'f'], Text.isWord character = true := by
    have all : ['s', 'e', 'l', 'f'].all Text.isWord = true := by decide
    exact List.all_eq_true.mp all
  rw [readFrom_word (List.cons_ne_nil _ _) isWord ends.noWord, nameItem_bare _ ends, ofItems,
    isSelf, ofName_self]
  rfl

theorem ends_nil : Ends [] := by
  intro character isNext
  cases isNext

theorem ends_spaces (count : Nat) (text : List Char) :
    Ends (List.replicate (count + 1) ' ' ++ text) := by
  intro character isNext
  rw [List.replicate_succ, List.cons_append, List.head?_cons, Option.mem_some] at isNext
  subst isNext
  decide

theorem ends_closing (shape : Brackets) (text : List Char) : Ends (shape.closing :: text) := by
  intro character isNext
  rw [List.head?_cons, Option.mem_some] at isNext
  subst isNext
  cases shape <;> decide

/-- What pads the inside of brackets ends a word there. -/
theorem ends_padding (padding : Nat) (shape : Brackets) (text : List Char) :
    Ends (List.replicate padding ' ' ++ shape.closing :: text) := by
  cases padding with
  | zero => exact ends_closing shape text
  | succ padding => exact ends_spaces padding _

/-- An entry declares its argument, outside of brackets and without leaving any open. -/
theorem readFrom_entry (reversed : List Argument) (padding : Nat) (entry : Entry)
    (ends : Ends behind) :
    readFrom reversed none (entry.written padding ++ behind) =
      readFrom (entry.argument :: reversed) none behind := by
  cases entry with
  | equals => exact readFrom_equals behind
  | content => exact readFrom_content ends
  | named name shape clause =>
      cases shape with
      | none =>
          have read := readFrom_named reversed name none clause ends
          simpa only [Entry.written, Option.elim_none, Option.map_none, List.append_assoc]
            using read
      | some shape =>
          have read := readFrom_named reversed name (some shape) clause
            (ends_padding padding shape behind)
          simp only [Entry.written, Option.elim_some, List.append_assoc, List.cons_append,
            List.nil_append]
          rw [readFrom_opening, readFrom_spaces]
          rw [Option.map_some] at read
          rw [read, readFrom_spaces, readFrom_closing]

/-- The entries of a specification declare their arguments in order. -/
theorem readFrom_entries (gap padding : Nat) (entries : List Entry) :
    readFrom reversed none
        ((List.replicate (gap + 1) ' ').intercalate (entries.map (Entry.written padding))) =
      .ok (reversed.reverse ++ entries.map Entry.argument) := by
  -- The arguments in front of an entry are what varies along the list.
  induction entries generalizing reversed with
  | nil =>
      rw [List.map_nil, List.intercalate_nil, readFrom, items, ofItems_nil, List.map_nil,
        List.append_nil]
  | cons entry rest ih =>
      cases rest with
      | nil =>
          have read := readFrom_entry reversed padding entry ends_nil
          rw [List.append_nil] at read
          rw [List.map_singleton, List.intercalate_singleton, read, readFrom, items, ofItems_nil,
            List.reverse_cons, List.map_singleton]
      | cons next rest =>
          rw [List.map_cons, List.map_cons, List.intercalate_cons_cons, List.append_assoc,
            readFrom_entry _ padding entry (ends_spaces gap _), readFrom_spaces, ← List.map_cons,
            ih, List.reverse_cons, List.append_assoc, List.singleton_append, ← List.map_cons]

theorem addModifier_nil : addModifier [] character = .ok [modifying [character]] := rfl

theorem addModifier_modifying (characters : List Char) (rest : List Argument) :
    addModifier (modifying characters :: rest) character =
      .ok (modifying (characters ++ [character]) :: rest) := by
  simp only [addModifier, modifying, String.ofList_append, String.singleton_eq_ofList]

/-- Modifier characters behind others are added to them. -/
theorem readFrom_modifierCharacters {more : List Char}
    (isModifier : ∀ character ∈ more, character ∈ modifierCharacters)
    (characters text : List Char) :
    readFrom (modifying characters :: reversed) brackets (more ++ text) =
      readFrom (modifying (characters ++ more) :: reversed) brackets text := by
  induction more generalizing characters with
  | nil => rw [List.nil_append, List.append_nil]
  | cons first rest ih =>
      rw [List.cons_append,
        readFrom_modifierCharacter (isModifier first List.mem_cons_self)
          (addModifier_modifying characters reversed),
        ih fun character member => isModifier character (List.mem_cons_of_mem _ member),
        List.append_assoc, List.singleton_append]

/-- A modifier in front of all other arguments declares one argument. -/
theorem readFrom_modifier (brackets : Option (Char × Char)) (modifier : Modifier)
    (text : List Char) :
    readFrom [] brackets (modifier.characters ++ text) =
      readFrom [modifier.argument] brackets text := by
  obtain ⟨characters, nonempty, isModifier⟩ := modifier
  obtain ⟨first, more, rfl⟩ := List.exists_cons_of_ne_nil nonempty
  rw [List.cons_append,
    readFrom_modifierCharacter (isModifier first List.mem_cons_self) addModifier_nil,
    readFrom_modifierCharacters
      fun character member => isModifier character (List.mem_cons_of_mem _ member),
    List.singleton_append]
  rfl

end Argument

/-! ## Written specifications -/

namespace Specification

open Argument

/-- Reading a specification as it is written gives the arguments that it declares. -/
theorem arguments_read (specification : Specification) (gap padding : Nat) :
    ofSpecification (specification.written gap padding) = .ok specification.arguments := by
  obtain ⟨modifier, entries⟩ := specification
  rw [ofSpecification, written, String.toList_ofList, arguments]
  change readFrom [] none _ = _
  cases modifier with
  | none => exact readFrom_entries gap padding entries
  | some modifier =>
      simp only [Option.toList_some, List.map_singleton, List.singleton_append]
      cases entries with
      | nil =>
          have read := readFrom_modifier none modifier []
          rw [List.append_nil] at read
          rw [List.map_nil, List.intercalate_singleton, read, readFrom, items, ofItems,
            List.map_nil, List.reverse_singleton]
      | cons entry rest =>
          rw [List.map_cons, List.intercalate_cons_cons, List.append_assoc, readFrom_modifier,
            readFrom_spaces, ← List.map_cons, readFrom_entries, List.reverse_singleton,
            List.singleton_append]

end Specification

end TexTree
