import TexTree.Proofs.Engine.Running
import TexTree.Proofs.Engine.Splitting

/-!
# Dictionaries

The items of a dictionary stand between delimiters outside of groups.  An item without an
equals sign outside of groups is a key that is set.  Otherwise its key is what stands in front of
the first such sign, and its value is what stands behind it (`MakesEntry`).

The value is put together from its parts between further equals signs, which loses the spaces
next to them.  Hence it is read as it is written only if these signs are tight
(`dictionary_entries`).
-/

namespace TexTree

/-- An entry of a dictionary before its value is converted; a key that is set has none. -/
structure DictionaryEntry where
  key : String
  value : Option (List Token)

namespace Token

variable {item tokens : List Token} {parts : List (List Token)} {separators : List Token}

/-- The text of tokens as a key. -/
def keyText (tokens : List Token) : String := Text.trim (displayList (trimSpaces tokens))

/-- An item of a dictionary makes an entry. -/
inductive MakesEntry (item : List Token) : DictionaryEntry → Prop where
  | flag (alone : Parted '=' item [item] []) : MakesEntry item ⟨keyText item, none⟩
  | pair {key behind : List Token} {equals : Token} {parts : List (List Token)}
      {separators : List Token} (isKey : Parted '=' key [key] [])
      (isEquals : equals.isDelimiter '=' = true) (whole : item = key ++ equals :: behind)
      (parted : Parted '=' behind parts separators)
      (exact : (joined '=' parts).map bare = (trimSpaces behind).map bare ↔ Tight '=' behind) :
      MakesEntry item ⟨keyText key, some (joined '=' parts)⟩

/-- The parts of a token list without the spaces around them, except for empty ones. -/
def itemsOf (parts : List (List Token)) : List (List Token) :=
  (parts.map trimSpaces).filter fun item => !item.isEmpty

theorem Parted.split_eq {delimiter : Char} (parted : Parted delimiter tokens parts separators) :
    split delimiter tokens = parts.map trimSpaces := by
  rw [split, parted.splitFrom_eq]

end Token

namespace Engine

open Token

variable (interpreter : Interpreter) (node : NodeId) (argument : Argument) (steps : Nat)
  {item tokens : List Token} {parts : List (List Token)} {separators : List Token}

/-- Convert the value of an entry. -/
def convertEntry (interpreter : Interpreter) (node : NodeId) (argument : Argument) (steps : Nat)
    (entry : DictionaryEntry) : TexM (String × Value) :=
  match entry.value with
  | none => return (entry.key, .bool true)
  | some tokens => do
      let value ← convertWithin interpreter node argument steps
        (argument.itemType.getD .text) tokens
      return (entry.key, value)

/-- Convert an item of a dictionary. -/
def convertItem (interpreter : Interpreter) (node : NodeId) (argument : Argument) (steps : Nat)
    (item : List Token) : TexM (String × Value) :=
  match Token.split '=' item with
  | [] => return ("", Value.bool true)
  | [key] => return (Text.trim (Token.displayList key), Value.bool true)
  | key :: parts => do
      let value ← convertWithin interpreter node argument steps (argument.itemType.getD .text)
        ([Token.other '='].intercalate parts)
      return (Text.trim (Token.displayList key), value)

theorem convertWithin_dictionary (tokens : List Token) :
    convertWithin interpreter node argument (steps + 1) .dictionary tokens = (do
      let entries ← ((Token.split argument.delimiter tokens).filter fun item => !item.isEmpty).mapM
        (convertItem interpreter node argument steps)
      return .dictionary entries) := by
  rfl

/-- Every item without spaces around it makes the entry that it is converted to. -/
theorem exists_makesEntry (balanced : Input.braces 0 item = some 0)
    (trimmed : trimSpaces item = item) :
    ∃ entry, MakesEntry item entry ∧
      convertItem interpreter node argument steps item =
        convertEntry interpreter node argument steps entry := by
  obtain ⟨parts, separators, parted⟩ := exists_parted '=' balanced
  cases separators with
  | nil =>
      obtain rfl := parted.of_nil
      refine ⟨_, .flag parted, ?_⟩
      rw [convertItem, parted.split_eq]
      rfl
  | cons equals separators =>
      obtain ⟨key, more, behind, rfl, rfl, isKey, isEquals, following⟩ := parted.of_cons
      -- The item ends with its value, so that no spaces are behind this.
      have behindTrimmed : behind.rdropWhile Input.isSpace = behind := by
        have whole := rdropWhile_trimSpaces (key ++ equals :: behind)
        rw [trimmed, ← List.singleton_append, ← List.append_assoc] at whole
        exact rdropWhile_of_append whole
      refine ⟨_, .pair isKey isEquals rfl following
        (following.joined_eq_trimSpaces_iff behindTrimmed), ?_⟩
      obtain ⟨next, rest, rfl⟩ := List.exists_cons_of_ne_nil following.ne_nil
      rw [convertItem, parted.split_eq]
      rfl

/-- Items are converted one after another. -/
theorem mapM_convertItem {items : List (List Token)}
    (balanced : ∀ item ∈ items, Input.braces 0 item = some 0)
    (trimmed : ∀ item ∈ items, trimSpaces item = item) :
    ∃ entries, List.Forall₂ MakesEntry items entries ∧
      items.mapM (convertItem interpreter node argument steps) =
        entries.mapM (convertEntry interpreter node argument steps) := by
  induction items with
  | nil => exact ⟨[], .nil, rfl⟩
  | cons item items ih =>
      rw [List.forall_mem_cons] at balanced trimmed
      obtain ⟨entry, makes, converts⟩ :=
        exists_makesEntry interpreter node argument steps balanced.1 trimmed.1
      obtain ⟨entries, makesAll, convertsAll⟩ := ih balanced.2 trimmed.2
      refine ⟨entry :: entries, .cons makes makesAll, ?_⟩
      rw [List.mapM_cons, List.mapM_cons, converts, convertsAll]

/-- The items of a dictionary between its delimiters make its entries in order.  The tokens of a
value are those behind the first equals sign of its item, without the spaces around them, exactly if
all further equals signs are tight. -/
theorem dictionary_entries (balanced : Input.braces 0 tokens = some 0) :
    ∃ parts separators entries, Parted argument.delimiter tokens parts separators ∧
      List.Forall₂ MakesEntry (itemsOf parts) entries ∧
      convertWithin interpreter node argument (steps + 1) .dictionary tokens = (do
        let converted ← entries.mapM (convertEntry interpreter node argument steps)
        return .dictionary converted) := by
  obtain ⟨parts, separators, parted⟩ := exists_parted argument.delimiter balanced
  have isItem : ∀ item ∈ itemsOf parts, ∃ part ∈ parts, trimSpaces part = item := by
    intro item member
    exact List.mem_map.mp (List.mem_of_mem_filter member)
  have balancedItems : ∀ item ∈ itemsOf parts, Input.braces 0 item = some 0 := by
    intro item member
    obtain ⟨part, isPart, rfl⟩ := isItem item member
    rw [braces_trimSpaces]
    exact parted.braces part isPart
  have trimmedItems : ∀ item ∈ itemsOf parts, trimSpaces item = item := by
    intro item member
    obtain ⟨part, isPart, rfl⟩ := isItem item member
    exact trimSpaces_trimSpaces part
  obtain ⟨entries, makes, converts⟩ :=
    mapM_convertItem interpreter node argument steps balancedItems trimmedItems
  refine ⟨parts, separators, entries, parted, makes, ?_⟩
  rw [convertWithin_dictionary, parted.split_eq]
  exact congrArg (· >>= _) converts

/-- The value of the first item has an equals sign with spaces around it, which are lost. -/
theorem dictionary_entries_spaced :
    let argument : Argument := ⟨"options", .required, .dictionary, ',', some .tokens⟩
    let item : List Token :=
      [.letter 'k', .other '=', .letter 'a', .space, .other '=', .space, .letter 'b']
    let tokens : List Token := item ++ [.other ',', .space, .letter 'f']
    let converts := convertWithin (Engine.interpreter 1) default argument 2 .dictionary tokens
    Input.braces 0 tokens = some 0 ∧
      (∃ entries, List.Forall₂ MakesEntry [item, [.letter 'f']] entries ∧
        converts = do
          let converted ← entries.mapM (convertEntry (Engine.interpreter 1) default argument 1)
          return .dictionary converted) ∧
      ∀ engine, converts engine =
        .ok (.dictionary [("k", .tokens [.letter 'a', .other '=', .letter 'b']),
          ("f", .bool true)]) engine := by
  intro argument item tokens converts
  have balanced : Input.braces 0 tokens = some 0 := by decide
  obtain ⟨parts, separators, entries, parted, makes, isConverted⟩ :=
    dictionary_entries (Engine.interpreter 1) default argument 1 balanced
  have isItems : itemsOf parts = [item, [.letter 'f']] := by
    rw [← parted.splitFrom_eq]
    decide
  rw [isItems] at makes
  exact ⟨balanced, ⟨entries, makes, isConverted⟩, fun _ => rfl⟩

end Engine

end TexTree
