import Mathlib.Data.List.DropRight
import Mathlib.Data.List.Forall2
import TexTree.Proofs.Engine.Constants

/-!
# Looking ahead for keywords

To find out whether a keyword follows, tokens are read one after the other, with expansion.  If one
of them does not go on with the keyword, all of them are put back, so that another keyword can be
tried on the same tokens.

This works as long as the tokens are read as they stand, without being expanded (`Inert`).  Then
reading changes nothing but the input and the count of expansions, and what is left of the input is
known token by token, with the positions (`Leaves`).  What is ahead either starts with the letters
of the keyword (`Spells`), or there is a first token that is not the next letter (`Breaks`), and
there is a lemma about the search for each of the two.
-/

namespace TexTree

namespace Engine

variable {start engine : Engine} {scopes : Scopes} {interpreter : Interpreter}
  {tokens word behind : List Token} {token : Token} {character : Char}

/-! ## Reading what cannot be expanded -/

/-- The token is read as it stands: it is a character or a marker, or a control sequence that
is no alias of a character and bound to no command that can be expanded. -/
def Inert (scopes : Scopes) (token : Token) : Prop :=
  token.isControl = true → scopes.alias? token.text = none ∧
    ∀ command ∈ scopes.command? token.text, command.isExpandable = false

instance (scopes : Scopes) (token : Token) : Decidable (Inert scopes token) :=
  inferInstanceAs (Decidable (token.isControl = true → scopes.alias? token.text = none ∧
    ∀ command ∈ scopes.command? token.text, command.isExpandable = false))

theorem inert_of_category (isCharacter : token.category ≠ .escape) : Inert scopes token :=
  fun isControl => absurd (by simpa [Token.isControl] using isControl) isCharacter

/-- The command that a token is bound to, if it is a control sequence. -/
def boundCommand? (scopes : Scopes) (token : Token) : Option Command :=
  if token.isControl then scopes.command? token.text else none

/-- Nothing has changed since the start but the count of expansions and the input, of which
these tokens are left. -/
structure Leaves (start : Engine) (tokens : List Token) (engine : Engine) : Prop where
  unchanged : engine = { start with input := engine.input, expansions := engine.expansions }
  drain_eq : (engine.input.drain start.scopes.categories).1 = tokens

namespace Leaves

theorem refl (engine : Engine) :
    Leaves engine (engine.input.drain engine.scopes.categories).1 engine := ⟨rfl, rfl⟩

theorem scopes_eq (leaves : Leaves start tokens engine) : engine.scopes = start.scopes := by
  rw [leaves.unchanged]

theorem runs_nextRaw (leaves : Leaves start tokens engine) :
    Runs nextRaw engine fun result after =>
      result = tokens.head? ∧ Leaves start tokens.tail after := by
  obtain ⟨unchanged, rfl⟩ := leaves
  obtain ⟨isHead, isTail⟩ :=
    Input.Operation.run_eq start.scopes.categories .read engine.input
  refine runs_modifyGet ?_
  have same : engine.scopes = start.scopes := by rw [unchanged]
  rw [same]
  refine ⟨isHead, ?_, isTail⟩
  rw [unchanged]

/-- Tokens that are put back are left again. -/
theorem runs_pushTokens (leaves : Leaves start tokens engine) (added : List Token) :
    Runs (pushTokens added) engine fun _ after => Leaves start (added ++ tokens) after := by
  obtain ⟨unchanged, rfl⟩ := leaves
  refine runs_modify ⟨?_, Input.drain_pushTokens added engine.input⟩
  rw [unchanged]

theorem runs_clearExpansions (leaves : Leaves start tokens engine) :
    Runs clearExpansions engine fun _ after => Leaves start tokens after := by
  refine runs_modify ⟨?_, leaves.drain_eq⟩
  rw [leaves.unchanged]

/-- A token that is read as it stands is found with its command; nothing is found at the end of
the input. -/
theorem runs_unexpandable (idles : Idles interpreter) (enough : 0 < interpreter.limit)
    (inert : ∀ token ∈ tokens.head?, Inert start.scopes token)
    (leaves : Leaves start tokens engine) :
    Runs (unexpandable interpreter) engine fun result after =>
      result = tokens.head?.map (fun token => (token, boundCommand? start.scopes token)) ∧
        Leaves start tokens.tail after := by
  obtain ⟨steps, isLimit⟩ := Nat.exists_eq_add_one.mpr enough
  rw [unexpandable, isLimit, unexpandableWithin, nextToken, bind_assoc]
  refine leaves.runs_nextRaw.bind ?_
  rintro _ after ⟨rfl, leaves⟩
  cases tokens with
  | nil => exact runs_pure ⟨rfl, leaves⟩
  | cons token behind =>
      simp only [List.head?_cons, Option.map_some, boundCommand?]
      by_cases isControl : token.isControl = true
      · obtain ⟨noAlias, fixed⟩ := inert token rfl isControl
        simp only [isControl, if_true, bind_assoc]
        refine runs_get ?_
        simp only [leaves.scopes_eq, noAlias, pure_bind, isControl, if_true]
        refine runs_get ?_
        simp only [leaves.scopes_eq]
        cases bound : start.scopes.command? token.text with
        | none =>
            refine leaves.runs_clearExpansions.bind fun _ last leaves => ?_
            exact runs_pure ⟨rfl, leaves⟩
        | some command =>
            have notExpanded : Runs (interpreter.run (.expand token command)) after
                fun expands last => expands = false ∧ last = after :=
              ⟨false, after, idles token command after (fixed command bound), rfl, rfl⟩
            refine notExpanded.bind ?_
            rintro _ _ ⟨rfl, rfl⟩
            refine leaves.runs_clearExpansions.bind fun _ last leaves => ?_
            exact runs_pure ⟨rfl, leaves⟩
      · simp only [isControl, Bool.false_eq_true, if_false, pure_bind]
        exact runs_pure ⟨rfl, leaves⟩

/-- All spaces are skipped, and what stands behind them is left. -/
theorem runs_skipSpacesWithin (idles : Idles interpreter) (enough : 0 < interpreter.limit)
    {steps : Nat} (few : (tokens.takeWhile Input.isSpace).length < steps)
    (inert : ∀ token ∈ (tokens.dropWhile Input.isSpace).head?, Inert start.scopes token)
    (leaves : Leaves start tokens engine) :
    Runs (skipSpacesWithin interpreter steps) engine fun _ after =>
      Leaves start (tokens.dropWhile Input.isSpace) after := by
  -- By induction on the tokens; each step takes one space from them.
  induction tokens generalizing engine steps with
  | nil =>
      obtain ⟨steps, rfl⟩ := Nat.exists_eq_add_one.mpr (Nat.zero_lt_of_lt few)
      rw [skipSpacesWithin]
      refine (leaves.runs_unexpandable idles enough (by simp)).bind ?_
      rintro _ after ⟨rfl, leaves⟩
      exact runs_pure leaves
  | cons token behind ih =>
      obtain ⟨steps, rfl⟩ := Nat.exists_eq_add_one.mpr (Nat.zero_lt_of_lt few)
      rw [skipSpacesWithin]
      by_cases isSpace : token.category = .space
      · have isBlank : Input.isSpace token = true := by simp [Input.isSpace, isSpace]
        have isInert : Inert start.scopes token := inert_of_category (by simp [isSpace])
        rw [List.takeWhile_cons_of_pos isBlank, List.length_cons] at few
        rw [List.dropWhile_cons_of_pos isBlank] at inert ⊢
        refine (leaves.runs_unexpandable idles enough (by simpa using isInert)).bind ?_
        rintro _ after ⟨rfl, leaves⟩
        simp only [List.head?_cons, Option.map_some, isSpace, if_true]
        exact ih (Nat.lt_of_succ_lt_succ few) inert leaves
      · have isVisible : ¬Input.isSpace token = true := by simp [Input.isSpace, isSpace]
        rw [List.dropWhile_cons_of_neg isVisible] at inert ⊢
        refine (leaves.runs_unexpandable idles enough inert).bind ?_
        rintro _ after ⟨rfl, leaves⟩
        simp only [List.head?_cons, Option.map_some, isSpace, if_false]
        exact leaves.runs_pushTokens [token]

/-- One space is skipped if there is one. -/
theorem runs_skipOneSpace (idles : Idles interpreter) (enough : 0 < interpreter.limit)
    (inert : ∀ token ∈ tokens.head?, Inert start.scopes token)
    (leaves : Leaves start tokens engine) :
    Runs (skipOneSpace interpreter) engine fun _ after =>
      Leaves start (pastSpace tokens) after := by
  unfold skipOneSpace
  refine (leaves.runs_unexpandable idles enough inert).bind ?_
  rintro _ after ⟨rfl, leaves⟩
  cases tokens with
  | nil => exact runs_pure leaves
  | cons token behind =>
      simp only [List.head?_cons, Option.map_some, pastSpace]
      by_cases isSpace : token.category = .space
      · simp only [isSpace, ne_eq, not_true_eq_false, if_true, if_false]
        exact runs_pure leaves
      · simp only [isSpace, ne_eq, not_false_eq_true, if_true, if_false]
        exact leaves.runs_pushTokens [token]

end Leaves

/-! ## Keywords -/

/-- The token is this one character, in either case, as a letter or as an ordinary
character. -/
def Denotes (token : Token) (character : Char) : Prop :=
  (token.category = .letter ∨ token.category = .other) ∧
    ∃ found, token.text = String.singleton found ∧ found.toLower = character.toLower

theorem spells_eq_true_iff : spells token character = true ↔ Denotes token character := by
  have single (found : Char) :
      token.text.toList = [found] ↔ token.text = String.singleton found := by
    rw [← String.toList_inj, String.toList_singleton]
  unfold spells Denotes
  rw [Bool.and_eq_true, Bool.or_eq_true, beq_iff_eq, beq_iff_eq]
  refine and_congr_right fun _ => ?_
  split
  · next found isText =>
      rw [single] at isText
      simp [isText]
  · next notSingle =>
      simp only [Bool.false_eq_true, false_iff]
      rintro ⟨found, isText, -⟩
      exact notSingle found ((single found).mpr isText)

instance (token : Token) (character : Char) : Decidable (Denotes token character) :=
  decidable_of_iff _ spells_eq_true_iff

theorem Denotes.isControl (denotes : Denotes token character) : token.isControl = false := by
  obtain ⟨isLetter | isOther, -⟩ := denotes
  · simp [Token.isControl, isLetter]
  · simp [Token.isControl, isOther]

theorem Denotes.inert (denotes : Denotes token character) : Inert scopes token := by
  intro isControl
  rw [denotes.isControl] at isControl
  cases isControl

/-- The tokens are the characters of a word. -/
def Spells : List Token → List Char → Prop := List.Forall₂ Denotes

instance (word : List Token) (keyword : List Char) : Decidable (Spells word keyword) :=
  inferInstanceAs (Decidable (List.Forall₂ Denotes word keyword))

/-- The characters do not stand next: the tokens end before them, or one of them, which is read
as it stands, is another character or none. -/
inductive Breaks (scopes : Scopes) : List Char → List Token → Prop where
  | ended {character : Char} {more : List Char} : Breaks scopes (character :: more) []
  | other {character : Char} {more : List Char} {token : Token} {rest : List Token}
      (inert : Inert scopes token) (differs : ¬Denotes token character) :
      Breaks scopes (character :: more) (token :: rest)
  | later {character : Char} {more : List Char} {token : Token} {rest : List Token}
      (denotes : Denotes token character) (breaks : Breaks scopes more rest) :
      Breaks scopes (character :: more) (token :: rest)

/-- What stands next does not go on with a character. -/
theorem Breaks.of_head {more : List Char}
    (ends : ∀ token ∈ tokens.head?, Inert scopes token ∧ ¬Denotes token character) :
    Breaks scopes (character :: more) tokens := by
  cases tokens with
  | nil => exact .ended
  | cons token rest =>
      obtain ⟨inert, differs⟩ := ends token rfl
      exact .other inert differs

/-- A word may break behind characters that stand there. -/
theorem Breaks.append {first second : List Char} (spelled : Spells word first)
    (breaks : Breaks scopes second behind) : Breaks scopes (first ++ second) (word ++ behind) := by
  induction spelled with
  | nil => exact breaks
  | cons denotes _ ih => exact .later denotes ih

theorem Breaks.not_spelled {keyword : List Char} (breaks : Breaks scopes keyword tokens) :
    ¬∃ word, word <+: tokens ∧ Spells word keyword := by
  rintro ⟨word, isPrefix, spelled⟩
  induction breaks generalizing word with
  | ended =>
      rw [List.prefix_nil.mp isPrefix] at spelled
      cases spelled
  | other _ differs =>
      cases spelled with
      | cons denotes _ => exact differs ((List.cons_prefix_cons.mp isPrefix).1 ▸ denotes)
  | later _ _ ih =>
      cases spelled with
      | cons _ rest => exact ih _ (List.cons_prefix_cons.mp isPrefix).2 rest

/-- If all tokens are read as they stand, a keyword stands next, or it breaks at one of them. -/
theorem spelled_or_breaks (inert : ∀ token ∈ tokens, Inert scopes token) (keyword : List Char) :
    (∃ word behind, tokens = word ++ behind ∧ Spells word keyword) ∨
      Breaks scopes keyword tokens := by
  induction keyword generalizing tokens with
  | nil => exact .inl ⟨[], tokens, rfl, .nil⟩
  | cons character more ih =>
      cases tokens with
      | nil => exact .inr .ended
      | cons token rest =>
          obtain ⟨isInert, inert⟩ := List.forall_mem_cons.mp inert
          by_cases denotes : Denotes token character
          · rcases ih inert with ⟨word, behind, rfl, spelled⟩ | breaks
            · exact .inl ⟨token :: word, behind, rfl, .cons denotes spelled⟩
            · exact .inr (.later denotes breaks)
          · exact .inr (.other isInert denotes)

theorem Breaks.inert_head {keyword : List Char} (breaks : Breaks scopes keyword tokens) :
    ∀ token ∈ tokens.head?, Inert scopes token := by
  cases breaks with
  | ended => simp
  | other inert => simpa using inert
  | later denotes => simpa using denotes.inert

theorem Spells.inert_head {keyword : List Char} (spelled : Spells word keyword)
    (inert : ∀ token ∈ behind.head?, Inert scopes token) :
    ∀ token ∈ (word ++ behind).head?, Inert scopes token := by
  cases spelled with
  | nil => exact inert
  | cons denotes _ => simpa using denotes.inert

namespace Leaves

/-- A character of the keyword is read, and kept in case that the keyword breaks later. -/
theorem runs_readKeywordFrom_denotes (idles : Idles interpreter) (enough : 0 < interpreter.limit)
    (denotes : Denotes token character) {more : List Char} {read : List Token}
    {post : Bool → Engine → Prop} (leaves : Leaves start (token :: tokens) engine)
    (goesOn : ∀ after, Leaves start tokens after →
      Runs (readKeywordFrom interpreter (token :: read) more) after post) :
    Runs (readKeywordFrom interpreter read (character :: more)) engine post := by
  rw [readKeywordFrom]
  refine (leaves.runs_unexpandable idles enough (by simpa using denotes.inert)).bind ?_
  rintro _ after ⟨rfl, leaves⟩
  have isSpelled : spells token character = true := spells_eq_true_iff.mpr denotes
  simp only [List.head?_cons, Option.map_some, boundCommand?, denotes.isControl,
    Bool.false_eq_true, if_false, Option.isNone_none, isSpelled, Bool.and_self, if_true]
  exact goesOn after leaves

/-- The characters of a keyword are read. -/
theorem runs_readKeywordFrom_spelled (idles : Idles interpreter) (enough : 0 < interpreter.limit)
    {keyword : List Char} (spelled : Spells word keyword) (read : List Token)
    (leaves : Leaves start (word ++ behind) engine) :
    Runs (readKeywordFrom interpreter read keyword) engine fun found after =>
      found = true ∧ Leaves start behind after := by
  induction spelled generalizing engine read with
  | nil => exact runs_pure ⟨rfl, leaves⟩
  | cons denotes _ ih =>
      exact leaves.runs_readKeywordFrom_denotes idles enough denotes fun _ leaves => ih _ leaves

/-- When a keyword breaks, everything is put back. -/
theorem runs_readKeywordFrom_breaks (idles : Idles interpreter) (enough : 0 < interpreter.limit)
    {keyword : List Char} (breaks : Breaks start.scopes keyword tokens) (read : List Token)
    (leaves : Leaves start tokens engine) :
    Runs (readKeywordFrom interpreter read keyword) engine fun found after =>
      found = false ∧ Leaves start (read.reverse ++ tokens) after := by
  -- By induction on the way to the break; what was read grows with the characters before it.
  induction breaks generalizing engine read with
  | ended =>
      rw [readKeywordFrom]
      refine (leaves.runs_unexpandable idles enough (by simp)).bind ?_
      rintro _ after ⟨rfl, leaves⟩
      refine (leaves.runs_pushTokens read.reverse).bind fun _ last leaves => ?_
      exact runs_pure ⟨rfl, leaves⟩
  | @other character more token rest inert differs =>
      rw [readKeywordFrom]
      refine (leaves.runs_unexpandable idles enough (by simpa using inert)).bind ?_
      rintro _ after ⟨rfl, leaves⟩
      have notSpelled : spells token character = false := by
        rwa [← Bool.not_eq_true, spells_eq_true_iff]
      simp only [List.head?_cons, Option.map_some, notSpelled, Bool.and_false,
        Bool.false_eq_true, if_false]
      refine (leaves.runs_pushTokens (token :: read).reverse).bind fun _ last leaves => ?_
      rw [List.reverse_cons, List.append_assoc] at leaves
      exact runs_pure ⟨rfl, leaves⟩
  | @later character more token rest denotes _ ih =>
      refine leaves.runs_readKeywordFrom_denotes idles enough denotes fun after leaves => ?_
      have next := ih (token :: read) leaves
      rwa [List.reverse_cons, List.append_assoc] at next

/-- A keyword behind spaces is read with one space behind it. -/
theorem runs_readKeyword_spelled (idles : Idles interpreter) {keyword : String}
    (few : (tokens.takeWhile Input.isSpace).length < interpreter.limit)
    (visible : tokens.dropWhile Input.isSpace = word ++ behind)
    (spelled : Spells word keyword.toList)
    (inert : ∀ token ∈ behind.head?, Inert start.scopes token)
    (leaves : Leaves start tokens engine) :
    Runs (readKeyword interpreter keyword) engine fun found after =>
      found = true ∧ Leaves start (pastSpace behind) after := by
  have enough : 0 < interpreter.limit := Nat.zero_lt_of_lt few
  have skips := leaves.runs_skipSpacesWithin idles enough few
    (by rw [visible]; exact spelled.inert_head inert)
  rw [visible] at skips
  unfold readKeyword
  refine skips.bind fun _ after leaves => ?_
  refine (leaves.runs_readKeywordFrom_spelled idles enough spelled []).bind ?_
  rintro _ after ⟨rfl, leaves⟩
  refine (leaves.runs_skipOneSpace idles enough inert).bind fun _ last leaves => ?_
  exact runs_pure ⟨rfl, leaves⟩

/-- If a keyword breaks behind spaces, only the spaces are gone. -/
theorem runs_readKeyword_breaks (idles : Idles interpreter) {keyword : String}
    (few : (tokens.takeWhile Input.isSpace).length < interpreter.limit)
    (breaks : Breaks start.scopes keyword.toList (tokens.dropWhile Input.isSpace))
    (leaves : Leaves start tokens engine) :
    Runs (readKeyword interpreter keyword) engine fun found after =>
      found = false ∧ Leaves start (tokens.dropWhile Input.isSpace) after := by
  have enough : 0 < interpreter.limit := Nat.zero_lt_of_lt few
  unfold readKeyword
  refine (leaves.runs_skipSpacesWithin idles enough few breaks.inert_head).bind ?_
  intro _ after leaves
  refine (leaves.runs_readKeywordFrom_breaks idles enough breaks []).bind ?_
  rintro _ last ⟨rfl, leaves⟩
  exact runs_pure ⟨rfl, leaves⟩

/-- If all tokens are read as they stand, the keyword is found if and only if its letters stand
behind the spaces. -/
theorem runs_readKeyword (idles : Idles interpreter) (keyword : String)
    (inert : ∀ token ∈ tokens, Inert start.scopes token)
    (few : (tokens.takeWhile Input.isSpace).length < interpreter.limit)
    (leaves : Leaves start tokens engine) :
    let visible := tokens.dropWhile Input.isSpace
    Runs (readKeyword interpreter keyword) engine fun found after =>
      (found = true ↔ ∃ word, word <+: visible ∧ Spells word keyword.toList) ∧
      Leaves start (if found then pastSpace (visible.drop keyword.length) else visible) after := by
  intro visible
  have stays : ∀ token ∈ visible, Inert start.scopes token := fun token member =>
    inert token ((List.dropWhile_sublist _).mem member)
  rcases spelled_or_breaks stays keyword.toList with ⟨word, behind, isVisible, spelled⟩ | breaks
  · have isDropped : visible.drop keyword.length = behind := by
      have sameLength : word.length = keyword.length := by
        rw [spelled.length_eq, String.length_toList]
      rw [isVisible, ← sameLength, List.drop_left]
    have isInert : ∀ token ∈ behind.head?, Inert start.scopes token := fun token first =>
      stays token (isVisible ▸ List.mem_append_right word (List.mem_of_mem_head? first))
    refine (leaves.runs_readKeyword_spelled idles few isVisible spelled isInert).mono ?_
    rintro _ after ⟨rfl, leaves⟩
    refine ⟨iff_of_true rfl ⟨word, ⟨behind, isVisible.symm⟩, spelled⟩, ?_⟩
    rwa [if_pos rfl, isDropped]
  · refine (leaves.runs_readKeyword_breaks idles few breaks).mono ?_
    rintro _ after ⟨rfl, leaves⟩
    exact ⟨iff_of_false Bool.false_ne_true breaks.not_spelled, leaves⟩

end Leaves

end Engine

end TexTree
