import Mathlib.Data.List.DropRight
import TexTree.Engine.Argument
import TexTree.Proofs.Input.Grouping

/-!
# Parts of token lists

Token lists are cut at a delimiter, but groups stay whole, whatever is in them: `Parted` says
which parts there are and which delimiters stand between them.  If the braces of a token list
match, then it has parts (`exists_parted`), and these are what splitting gives, before the spaces
around them are dropped (`Parted.splitFrom_eq`).

Parts can be joined by new delimiters, without the spaces around them (`joined`).  This gives the
list back, up to positions, only if its delimiters were ordinary characters and no spaces stood
next to them (`Parted.joined_eq_iff`).
-/

namespace TexTree.Token

/-- The token delimits parts, unless it is in a group. -/
def isDelimiter (delimiter : Char) (token : Token) : Bool :=
  !token.isBrace && token.isChar delimiter

/-- The parts of a token list between the delimiters outside of groups, and these delimiters. -/
inductive Parted (delimiter : Char) : List Token → List (List Token) → List Token → Prop where
  | nil : Parted delimiter [] [[]] []
  | delimiter {token : Token} {rest separators : List Token} {parts : List (List Token)}
      (delimits : token.isDelimiter delimiter = true)
      (following : Parted delimiter rest parts separators) :
      Parted delimiter (token :: rest) ([] :: parts) (token :: separators)
  | plain {token : Token} {rest part separators : List Token} {parts : List (List Token)}
      (noBrace : token.isBrace = false) (noDelimiter : token.isDelimiter delimiter = false)
      (following : Parted delimiter rest (part :: parts) separators) :
      Parted delimiter (token :: rest) ((token :: part) :: parts) separators
  | group {opening closing : Token} {content rest part separators : List Token}
      {parts : List (List Token)} (opens : opening.category = .beginGroup)
      (inside : Input.braces 0 content = some 0) (closes : closing.category = .endGroup)
      (following : Parted delimiter rest (part :: parts) separators) :
      Parted delimiter (opening :: (content ++ closing :: rest))
        ((opening :: (content ++ closing :: part)) :: parts) separators

variable {delimiter : Char} {token separator : Token} {tokens content rest part : List Token}
  {parts : List (List Token)} {separators : List Token}

/-! ## Existence -/

/-- The first brace that closes more than was opened ends a group. -/
theorem group_of_braces {depth : Nat} (balanced : Input.braces (depth + 1) tokens = some 0) :
    ∃ content closing rest, tokens = content ++ closing :: rest ∧
      Input.braces depth content = some 0 ∧ closing.category = .endGroup ∧
      Input.braces 0 rest = some 0 := by
  induction tokens generalizing depth with
  | nil => cases balanced
  | cons token tokens ih =>
      by_cases opens : token.category = .beginGroup
      · rw [Input.braces_opening opens] at balanced
        obtain ⟨content, closing, rest, rfl, inside, closes, outside⟩ := ih balanced
        exact ⟨token :: content, closing, rest, rfl,
          (Input.braces_opening opens depth content).trans inside, closes, outside⟩
      by_cases closes : token.category = .endGroup
      · rw [Input.braces_closing closes] at balanced
        cases depth with
        | zero => exact ⟨[], token, tokens, rfl, rfl, closes, balanced⟩
        | succ depth =>
            obtain ⟨content, closing, rest, rfl, inside, closes', outside⟩ := ih balanced
            exact ⟨token :: content, closing, rest, rfl,
              (Input.braces_closing closes depth content).trans inside, closes', outside⟩
      · rw [Input.braces_other opens closes] at balanced
        obtain ⟨content, closing, rest, rfl, inside, closes', outside⟩ := ih balanced
        exact ⟨token :: content, closing, rest, rfl,
          (Input.braces_other opens closes depth content).trans inside, closes', outside⟩

theorem Parted.ne_nil (parted : Parted delimiter tokens parts separators) : parts ≠ [] := by
  cases parted <;> exact List.cons_ne_nil _ _

/-- A token list whose braces match has parts. -/
theorem exists_parted (delimiter : Char) (balanced : Input.braces 0 tokens = some 0) :
    ∃ parts separators, Parted delimiter tokens parts separators := by
  -- A group is taken as a whole, so that the induction is on the length.
  induction isLength : tokens.length using Nat.strong_induction_on generalizing tokens with
  | _ length ih =>
  subst isLength
  cases tokens with
  | nil => exact ⟨[[]], [], .nil⟩
  | cons token tokens =>
      by_cases opens : token.category = .beginGroup
      · rw [Input.braces_opening opens] at balanced
        obtain ⟨content, closing, rest, rfl, inside, closes, outside⟩ := group_of_braces balanced
        have shorter : rest.length < (token :: (content ++ closing :: rest)).length := by
          simp only [List.length_cons, List.length_append]
          omega
        obtain ⟨parts, separators, parted⟩ := ih _ shorter outside rfl
        obtain ⟨part, parts, rfl⟩ := List.exists_cons_of_ne_nil parted.ne_nil
        exact ⟨_, _, .group opens inside closes parted⟩
      have notClosing : token.category ≠ .endGroup := by
        intro closes
        simp [Input.braces, closes] at balanced
      rw [Input.braces_other opens notClosing] at balanced
      obtain ⟨parts, separators, parted⟩ := ih _ (Nat.lt_succ_self _) balanced rfl
      cases delimits : token.isDelimiter delimiter with
      | true => exact ⟨_, _, .delimiter delimits parted⟩
      | false =>
          obtain ⟨part, parts, rfl⟩ := List.exists_cons_of_ne_nil parted.ne_nil
          have noBrace : token.isBrace = false := by simp [isBrace, opens, notClosing]
          exact ⟨_, _, .plain noBrace delimits parted⟩

/-- The braces of every part match. -/
theorem Parted.braces (parted : Parted delimiter tokens parts separators) :
    ∀ part ∈ parts, Input.braces 0 part = some 0 := by
  induction parted with
  | nil => simp [Input.braces]
  | delimiter _ _ ih => exact List.forall_mem_cons.mpr ⟨rfl, ih⟩
  | plain noBrace _ _ ih =>
      obtain ⟨notOpening, notClosing⟩ := category_of_not_isBrace noBrace
      rw [List.forall_mem_cons] at ih ⊢
      rw [Input.braces_other notOpening notClosing]
      exact ih
  | group opens inside closes _ ih =>
      rw [List.forall_mem_cons] at ih ⊢
      rw [Input.braces_opening opens, Input.braces_append (Input.braces_add inside 1),
        Input.braces_closing closes]
      exact ih

/-! ## Splitting -/

theorem splitFrom_ne_nil (delimiter : Char) (depth : Nat) (tokens : List Token) :
    splitFrom delimiter depth tokens ≠ [] := by
  cases tokens with
  | nil => exact List.cons_ne_nil _ _
  | cons token tokens =>
      unfold splitFrom
      dsimp only
      split <;> (try split) <;> (try split) <;> exact List.cons_ne_nil _ _

theorem splitFrom_opening (opens : token.category = .beginGroup) (depth : Nat) :
    splitFrom delimiter depth (token :: tokens) =
      (splitFrom delimiter (depth + 1) tokens).modifyHead (token :: ·) := by
  obtain ⟨part, parts, isSplit⟩ :=
    List.exists_cons_of_ne_nil (splitFrom_ne_nil delimiter (depth + 1) tokens)
  simp only [splitFrom, opens, isSplit, List.modifyHead_cons]

theorem splitFrom_closing (closes : token.category = .endGroup) (depth : Nat) :
    splitFrom delimiter (depth + 1) (token :: tokens) =
      (splitFrom delimiter depth tokens).modifyHead (token :: ·) := by
  obtain ⟨part, parts, isSplit⟩ :=
    List.exists_cons_of_ne_nil (splitFrom_ne_nil delimiter depth tokens)
  simp only [splitFrom, closes, Nat.add_sub_cancel, isSplit, List.modifyHead_cons]

theorem splitFrom_plain (noBrace : token.isBrace = false) {depth : Nat}
    (stays : ¬(depth = 0 ∧ token.isChar delimiter)) :
    splitFrom delimiter depth (token :: tokens) =
      (splitFrom delimiter depth tokens).modifyHead (token :: ·) := by
  obtain ⟨part, parts, isSplit⟩ :=
    List.exists_cons_of_ne_nil (splitFrom_ne_nil delimiter depth tokens)
  obtain ⟨notOpening, notClosing⟩ := category_of_not_isBrace noBrace
  rw [splitFrom.eq_def]
  dsimp only
  split
  · contradiction
  · contradiction
  · rw [if_neg stays, isSplit, List.modifyHead_cons]

theorem splitFrom_delimiter (delimits : token.isDelimiter delimiter = true) :
    splitFrom delimiter 0 (token :: tokens) = [] :: splitFrom delimiter 0 tokens := by
  obtain ⟨noBrace, isChar⟩ : token.isBrace = false ∧ token.isChar delimiter = true := by
    simpa [isDelimiter] using delimits
  obtain ⟨notOpening, notClosing⟩ := category_of_not_isBrace noBrace
  rw [splitFrom.eq_def]
  dsimp only
  split
  · contradiction
  · contradiction
  · rw [if_pos ⟨rfl, isChar⟩]

/-- Inside of a group, nothing is split. -/
theorem splitFrom_inside {depth final : Nat} (balanced : Input.braces depth content = some final) :
    splitFrom delimiter (depth + 1) (content ++ tokens) =
      (splitFrom delimiter (final + 1) tokens).modifyHead (content ++ ·) := by
  induction content generalizing depth with
  | nil =>
      cases balanced
      exact (congrFun List.modifyHead_id _).symm
  | cons token content ih =>
      have prepend (parts : List (List Token)) :
          (parts.modifyHead (content ++ ·)).modifyHead (token :: ·) =
            parts.modifyHead (token :: content ++ ·) := by
        rw [List.modifyHead_modifyHead]
        rfl
      rw [List.cons_append]
      by_cases opens : token.category = .beginGroup
      · rw [Input.braces_opening opens] at balanced
        rw [splitFrom_opening opens, ih balanced, prepend]
      by_cases closes : token.category = .endGroup
      · cases depth with
        | zero => simp [Input.braces, closes] at balanced
        | succ depth =>
            rw [Input.braces_closing closes] at balanced
            rw [splitFrom_closing closes, ih balanced, prepend]
      · rw [Input.braces_other opens closes] at balanced
        have noBrace : token.isBrace = false := by simp [isBrace, opens, closes]
        rw [splitFrom_plain noBrace (by simp), ih balanced, prepend]

/-- The parts are what splitting gives. -/
theorem Parted.splitFrom_eq (parted : Parted delimiter tokens parts separators) :
    splitFrom delimiter 0 tokens = parts := by
  induction parted with
  | nil => rfl
  | delimiter delimits _ ih => rw [splitFrom_delimiter delimits, ih]
  | @plain token _ _ _ _ noBrace noDelimiter _ ih =>
      have noChar : ¬(0 = 0 ∧ token.isChar delimiter = true) := by
        simpa [isDelimiter, noBrace] using noDelimiter
      rw [splitFrom_plain noBrace noChar, ih, List.modifyHead_cons]
  | group opens inside closes _ ih =>
      rw [splitFrom_opening opens, splitFrom_inside inside, splitFrom_closing closes, ih]
      rfl

/-! ## The first part -/

theorem Parted.of_nil (parted : Parted delimiter tokens parts []) : parts = [tokens] := by
  generalize isEmpty : [] = separators at parted
  induction parted with
  | nil => rfl
  | delimiter => cases isEmpty
  | plain _ _ _ ih =>
      cases ih isEmpty
      rfl
  | group _ _ _ _ ih =>
      cases ih isEmpty
      rfl

/-- The first part ends at the first delimiter, and what is behind that has the other parts. -/
theorem Parted.of_cons (parted : Parted delimiter tokens parts (separator :: separators)) :
    ∃ first more rest, parts = first :: more ∧ tokens = first ++ separator :: rest ∧
      Parted delimiter first [first] [] ∧ separator.isDelimiter delimiter = true ∧
      Parted delimiter rest more separators := by
  generalize isCons : separator :: separators = all at parted
  induction parted with
  | nil => cases isCons
  | delimiter delimits following =>
      cases isCons
      exact ⟨[], _, _, rfl, rfl, .nil, delimits, following⟩
  | plain noBrace noDelimiter _ ih =>
      obtain ⟨first, more, rest, isFirst, rfl, alone, delimits, following⟩ := ih isCons
      cases isFirst
      exact ⟨_, _, rest, rfl, rfl, .plain noBrace noDelimiter alone, delimits, following⟩
  | group opens inside closes _ ih =>
      obtain ⟨first, more, rest, isFirst, rfl, alone, delimits, following⟩ := ih isCons
      cases isFirst
      exact ⟨_, _, rest, rfl, by simp, .group opens inside closes alone, delimits, following⟩

/-! ## Spaces -/

open Input (isSpace)

theorem trimSpaces_eq (tokens : List Token) :
    trimSpaces tokens = (tokens.dropWhile isSpace).rdropWhile isSpace := rfl

theorem trimSpaces_sublist (tokens : List Token) : (trimSpaces tokens).Sublist tokens :=
  (List.rdropWhile_prefix isSpace _).sublist.trans (List.dropWhile_sublist isSpace)

/-- Trimming leaves all tokens that are no spaces. -/
theorem countP_trimSpaces (tokens : List Token) :
    (trimSpaces tokens).countP (!isSpace ·) = tokens.countP (!isSpace ·) := by
  have dropped (tokens : List Token) :
      (tokens.dropWhile isSpace).countP (!isSpace ·) = tokens.countP (!isSpace ·) := by
    have noneTaken : (tokens.takeWhile isSpace).countP (!isSpace ·) = 0 := by
      rw [List.countP_eq_zero]
      intro token taken
      simp [List.mem_takeWhile_imp taken]
    conv_rhs => rw [← List.takeWhile_append_dropWhile (p := isSpace) (l := tokens)]
    rw [List.countP_append, noneTaken, Nat.zero_add]
  rw [trimSpaces_eq, List.rdropWhile, List.countP_reverse, dropped, List.countP_reverse, dropped]

theorem braces_spaces (blank : ∀ token ∈ tokens, isSpace token = true) (depth : Nat) :
    Input.braces depth tokens = some depth := by
  refine (Input.Grouped.ofPlain fun token member => ?_).braces depth
  have isBlank : token.category = .space := by simpa [isSpace] using blank token member
  simp [isBrace, isBlank]

/-- Trimming leaves all braces. -/
theorem braces_trimSpaces (depth : Nat) (tokens : List Token) :
    Input.braces depth (trimSpaces tokens) = Input.braces depth tokens := by
  have front : Input.braces depth (tokens.dropWhile isSpace) = Input.braces depth tokens := by
    conv_rhs => rw [← List.takeWhile_append_dropWhile (p := isSpace) (l := tokens)]
    rw [Input.braces_append (braces_spaces (fun _ taken => List.mem_takeWhile_imp taken) depth)]
  rw [trimSpaces_eq, ← front]
  generalize tokens.dropWhile isSpace = tokens
  conv_rhs => rw [← List.rdropWhile_append_rtakeWhile (p := isSpace) (l := tokens)]
  rw [Input.braces_bind]
  cases Input.braces depth (tokens.rdropWhile isSpace) with
  | none => rfl
  | some middle =>
      exact (braces_spaces (fun _ taken => List.mem_rtakeWhile_imp taken) middle).symm

theorem rdropWhile_trimSpaces (tokens : List Token) :
    (trimSpaces tokens).rdropWhile isSpace = trimSpaces tokens :=
  List.rdropWhile_idempotent isSpace _

theorem trimSpaces_trimSpaces (tokens : List Token) :
    trimSpaces (trimSpaces tokens) = trimSpaces tokens := by
  have unspaced : (trimSpaces tokens).dropWhile isSpace = trimSpaces tokens := by
    obtain ⟨behind, whole⟩ := List.rdropWhile_prefix isSpace (tokens.dropWhile isSpace)
    cases isTrimmed : trimSpaces tokens with
    | nil => rfl
    | cons first rest =>
        rw [← trimSpaces_eq, isTrimmed, List.cons_append] at whole
        have visible : ¬isSpace first = true := by
          intro blank
          have shorter := (List.dropWhile_suffix isSpace (l := rest ++ behind)).length_le
          have same := List.dropWhile_idempotent isSpace tokens
          rw [← whole, List.dropWhile_cons_of_pos blank] at same
          rw [same, List.length_cons] at shorter
          omega
        rw [List.dropWhile_cons_of_neg visible]
  rw [trimSpaces_eq (trimSpaces tokens), unspaced, rdropWhile_trimSpaces]

/-- Spaces in front of all tokens belong to the first part. -/
theorem Parted.dropWhile_isSpace (parted : Parted delimiter tokens parts separators)
    (visible : ∀ separator ∈ separators, isSpace separator = false) :
    Parted delimiter (tokens.dropWhile isSpace) (parts.modifyHead (List.dropWhile isSpace))
      separators := by
  induction parted with
  | nil => exact .nil
  | delimiter delimits following =>
      rw [List.forall_mem_cons] at visible
      rw [List.dropWhile_cons_of_neg (by simp [visible.1])]
      exact .delimiter delimits following
  | @plain token _ _ _ _ noBrace noDelimiter following ih =>
      by_cases blank : isSpace token = true
      · rw [List.dropWhile_cons_of_pos blank, List.modifyHead_cons,
          List.dropWhile_cons_of_pos blank]
        exact ih visible
      · rw [List.dropWhile_cons_of_neg blank, List.modifyHead_cons,
          List.dropWhile_cons_of_neg blank]
        exact .plain noBrace noDelimiter following
  | @group opening _ _ _ _ _ _ opens inside closes following ih =>
      have visibleBrace : ¬isSpace opening = true := by simp [isSpace, opens]
      rw [List.dropWhile_cons_of_neg visibleBrace, List.modifyHead_cons,
        List.dropWhile_cons_of_neg visibleBrace]
      exact .group opens inside closes following

/-! ## Joining -/

/-- The parts without the spaces around them, with new delimiters between them. -/
def joined (delimiter : Char) (parts : List (List Token)) : List Token :=
  [Token.other delimiter].intercalate (parts.map trimSpaces)

theorem joined_singleton (part : List Token) : joined delimiter [part] = trimSpaces part :=
  List.intercalate_singleton

theorem joined_cons (nonempty : parts ≠ []) :
    joined delimiter (part :: parts) =
      trimSpaces part ++ Token.other delimiter :: joined delimiter parts := by
  obtain ⟨next, more, rfl⟩ := List.exists_cons_of_ne_nil nonempty
  rw [joined, List.map_cons, List.map_cons, List.intercalate_cons_cons, List.append_assoc]
  rfl

/-- Only spaces are dropped. -/
theorem Parted.countP_joined (parted : Parted delimiter tokens parts separators) :
    (joined delimiter parts).countP (!isSpace ·) =
      tokens.countP (!isSpace ·) + separators.countP isSpace := by
  induction separators generalizing tokens parts with
  | nil =>
      rw [parted.of_nil, joined_singleton, countP_trimSpaces]
      rfl
  | cons separator separators ih =>
      obtain ⟨first, more, rest, rfl, rfl, -, -, following⟩ := parted.of_cons
      have visible : isSpace (.other delimiter) = false := rfl
      rw [joined_cons following.ne_nil]
      simp only [List.countP_append, List.countP_cons, countP_trimSpaces, ih following, visible]
      cases isSpace separator <;> simp <;> omega

theorem Parted.length_joined (parted : Parted delimiter tokens parts separators) :
    (joined delimiter parts).length ≤ tokens.length := by
  induction separators generalizing tokens parts with
  | nil =>
      rw [parted.of_nil, joined_singleton]
      exact (trimSpaces_sublist tokens).length_le
  | cons separator separators ih =>
      obtain ⟨first, more, rest, rfl, rfl, -, -, following⟩ := parted.of_cons
      have shorter := (trimSpaces_sublist first).length_le
      have shorterRest := ih following
      rw [joined_cons following.ne_nil]
      simp only [List.length_append, List.length_cons]
      omega

theorem bare_eq_other_iff (delimits : separator.isDelimiter delimiter = true) :
    separator.bare = .other delimiter ↔ separator.category = .other := by
  obtain ⟨text, category, position⟩ := separator
  have isText : text = String.singleton delimiter := by
    rw [isDelimiter, isChar] at delimits
    rw [← String.toList_inj, String.toList_singleton]
    simp only [Bool.and_eq_true, beq_iff_eq] at delimits
    exact delimits.2.2
  subst isText
  simp [bare, at?, other, ofChar]

/-- Joining gives the tokens back exactly if there were no spaces around the parts, and all
delimiters were ordinary characters. -/
theorem Parted.joined_eq_iff (parted : Parted delimiter tokens parts separators) :
    (joined delimiter parts).map bare = tokens.map bare ↔
      (∀ part ∈ parts, trimSpaces part = part) ∧
        ∀ separator ∈ separators, separator.category = .other := by
  induction separators generalizing tokens parts with
  | nil =>
      rw [parted.of_nil, joined_singleton]
      constructor
      · intro same
        have sameLength : (trimSpaces tokens).length = tokens.length := by
          simpa using congrArg List.length same
        simpa using (trimSpaces_sublist tokens).eq_of_length sameLength
      · rintro ⟨trimmed, -⟩
        rw [trimmed tokens (List.mem_singleton_self _)]
  | cons separator separators ih =>
      obtain ⟨first, more, rest, rfl, rfl, -, delimits, following⟩ := parted.of_cons
      rw [joined_cons following.ne_nil, List.forall_mem_cons, List.forall_mem_cons]
      constructor
      · intro same
        -- Nothing gets longer, so that nothing has got shorter either.
        have sameLength : (trimSpaces first).length = first.length := by
          have length := congrArg List.length same
          have shorter := (trimSpaces_sublist first).length_le
          have shorterRest := following.length_joined
          simp only [List.length_map, List.length_append, List.length_cons] at length
          omega
        have trimmed := (trimSpaces_sublist first).eq_of_length sameLength
        rw [trimmed, List.map_append, List.map_append, List.append_cancel_left_eq, List.map_cons,
          List.map_cons, List.cons.injEq] at same
        obtain ⟨sameDelimiter, sameRest⟩ := same
        obtain ⟨trimmedRest, ordinary⟩ := (ih following).mp sameRest
        exact ⟨⟨trimmed, trimmedRest⟩, (bare_eq_other_iff delimits).mp sameDelimiter.symm, ordinary⟩
      · rintro ⟨⟨trimmed, trimmedRest⟩, isOther, ordinary⟩
        rw [trimmed, List.map_append, List.map_append, List.map_cons, List.map_cons,
          (ih following).mpr ⟨trimmedRest, ordinary⟩, (bare_eq_other_iff delimits).mpr isOther]
        rfl

/-! ## Tight delimiters -/

/-- The delimiters outside of groups are ordinary characters, and no spaces stand next to them
once those around all tokens are dropped. -/
structure Tight (delimiter : Char) (tokens : List Token) : Prop where
  ordinary : ∃ parts separators, Parted delimiter tokens parts separators ∧
    ∀ separator ∈ separators, separator.category = .other
  unspaced : ∃ parts separators, Parted delimiter (trimSpaces tokens) parts separators ∧
    ∀ part ∈ parts, trimSpaces part = part

theorem rdropWhile_of_append {front : List Token}
    (trimmed : (front ++ rest).rdropWhile isSpace = front ++ rest) :
    rest.rdropWhile isSpace = rest := by
  rw [List.rdropWhile_eq_self_iff] at trimmed ⊢
  intro nonempty
  have last := trimmed (List.append_ne_nil_of_right_ne_nil _ nonempty)
  rwa [List.getLast_append_of_ne_nil _ nonempty] at last

theorem trimSpaces_of_rdropWhile (trimmed : tokens.rdropWhile isSpace = tokens) :
    trimSpaces tokens = tokens.dropWhile isSpace := by
  rw [← List.takeWhile_append_dropWhile (p := isSpace) (l := tokens)] at trimmed
  exact rdropWhile_of_append trimmed

theorem joined_modifyHead (parts : List (List Token)) :
    joined delimiter (parts.modifyHead (List.dropWhile isSpace)) = joined delimiter parts := by
  cases parts with
  | nil => rfl
  | cons part parts =>
      have same : trimSpaces (part.dropWhile isSpace) = trimSpaces part := by
        rw [trimSpaces_eq, List.dropWhile_idempotent, trimSpaces_eq]
      rw [joined, List.modifyHead_cons, List.map_cons, same]
      rfl

/-- Where no spaces follow, the parts are joined to the tokens without the spaces around them
exactly if the delimiters are tight. -/
theorem Parted.joined_eq_trimSpaces_iff (parted : Parted delimiter tokens parts separators)
    (trimmed : tokens.rdropWhile isSpace = tokens) :
    (joined delimiter parts).map bare = (trimSpaces tokens).map bare ↔ Tight delimiter tokens := by
  constructor
  · intro same
    -- All delimiters are visible, since as many tokens are.
    have visible : ∀ separator ∈ separators, isSpace separator = false := by
      have sameCount : (joined delimiter parts).countP (!isSpace ·) =
          (trimSpaces tokens).countP (!isSpace ·) := by
        have count := congrArg (List.countP (!isSpace ·)) same
        rwa [List.countP_map, List.countP_map] at count
      rw [parted.countP_joined, countP_trimSpaces, Nat.add_eq_left,
        List.countP_eq_zero] at sameCount
      exact fun separator member => by simpa using sameCount separator member
    have front := parted.dropWhile_isSpace visible
    rw [← trimSpaces_of_rdropWhile trimmed] at front
    rw [← joined_modifyHead, front.joined_eq_iff] at same
    obtain ⟨unspaced, ordinary⟩ := same
    exact ⟨⟨parts, separators, parted, ordinary⟩, _, separators, front, unspaced⟩
  · rintro ⟨⟨parts', separators', parted', ordinary⟩, parts'', _, front, unspaced⟩
    obtain rfl : parts' = parts := parted'.splitFrom_eq.symm.trans parted.splitFrom_eq
    have visible : ∀ separator ∈ separators', isSpace separator = false := by
      intro separator member
      simp [isSpace, ordinary separator member]
    have front' := parted'.dropWhile_isSpace visible
    rw [← trimSpaces_of_rdropWhile trimmed] at front'
    rw [← front.splitFrom_eq, front'.splitFrom_eq] at unspaced
    rw [← joined_modifyHead, front'.joined_eq_iff]
    exact ⟨unspaced, ordinary⟩

end TexTree.Token
