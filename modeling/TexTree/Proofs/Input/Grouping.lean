import TexTree.Input.Call
import TexTree.Proofs.Input.Stream

/-!
# Reading over groups

The readers of arguments look for a token outside of the groups and take each group on
their way as a whole.  `Grouped` describes the tokens that they pass over: single tokens
that are not braces, and groups of such tokens.  What a reader does then follows by
induction along this description.

A group that is passed over gets the usual closing brace, whatever the one was that
closed it.  Hence all groups are required to end with that brace.
-/

namespace TexTree

namespace Token

theorem same_eq_true_iff {left right : Token} :
    left.same right = true ↔ left.bare = right.bare := by
  obtain ⟨text, category, position⟩ := left
  obtain ⟨text', category', position'⟩ := right
  simp only [same, bare, at?, Bool.and_eq_true, beq_iff_eq, mk.injEq, and_true]
  exact and_comm

theorem sameList_eq_true_iff {left right : List Token} :
    sameList left right = true ↔ left.map bare = right.map bare := by
  induction left generalizing right with
  | nil => cases right <;> simp [sameList]
  | cons first rest ih =>
      cases right with
      | nil => simp [sameList]
      | cons other others =>
          simp only [sameList, Bool.and_eq_true, same_eq_true_iff, ih, List.map_cons,
            List.cons.injEq]

theorem category_eq {left right : Token} (same : left.bare = right.bare) :
    left.category = right.category := by
  rw [← category_bare, same, category_bare]

theorem isChar_eq {left right : Token} (same : left.bare = right.bare) (character : Char) :
    left.isChar character = right.isChar character := by
  rw [← isChar_bare, same, isChar_bare]

/-- Whether the token opens or closes a group. -/
def isBrace (token : Token) : Bool :=
  token.category == .beginGroup || token.category == .endGroup

theorem category_of_not_isBrace {token : Token} (noBrace : token.isBrace = false) :
    token.category ≠ .beginGroup ∧ token.category ≠ .endGroup := by
  simpa [isBrace] using noBrace

end Token

namespace Input

/-- The braces match, and all groups end with the same brace. -/
inductive Grouped : List Token → Prop where
  | nil : Grouped []
  | plain {token : Token} {tokens : List Token} (noBrace : token.isBrace = false)
      (following : Grouped tokens) : Grouped (token :: tokens)
  | group {opening closing : Token} {content tokens : List Token}
      (opens : opening.category = .beginGroup) (inside : Grouped content)
      (closes : closing.bare = .endGroup) (following : Grouped tokens) :
      Grouped (opening :: (content ++ closing :: tokens))

variable {table : CategoryTable} {input : Input} {closing : Token} {tokens content : List Token}

theorem category_of_closes (closes : closing.bare = .endGroup) :
    closing.category = .endGroup := by
  rw [← Token.category_bare, closes]
  rfl

theorem Grouped.ofPlain (noBraces : ∀ token ∈ tokens, token.isBrace = false) : Grouped tokens := by
  induction tokens with
  | nil => exact .nil
  | cons token rest ih =>
      rw [List.forall_mem_cons] at noBraces
      exact .plain noBraces.1 (ih noBraces.2)

theorem Grouped.append {first second : List Token} (one : Grouped first) (two : Grouped second) :
    Grouped (first ++ second) := by
  induction one with
  | nil => exact two
  | plain noBrace _ ih => exact .plain noBrace ih
  | group opens inside closes _ _ ih =>
      rw [List.cons_append, List.append_assoc, List.cons_append]
      exact .group opens inside closes ih

theorem Grouped.braces (grouped : Grouped tokens) (depth : Nat) :
    Input.braces depth tokens = some depth := by
  induction grouped generalizing depth with
  | nil => rfl
  | plain noBrace _ ih =>
      obtain ⟨notOpening, notClosing⟩ := Token.category_of_not_isBrace noBrace
      rw [braces_other notOpening notClosing, ih]
  | group opens _ closes _ insideIh followingIh =>
      rw [braces_opening opens, braces_append (insideIh _),
        braces_closing (category_of_closes closes), followingIh]

theorem braces_bare (depth : Nat) (tokens : List Token) :
    braces depth (tokens.map Token.bare) = braces depth tokens := by
  induction tokens generalizing depth with
  | nil => rfl
  | cons token rest ih =>
      rw [List.map_cons]
      by_cases opens : token.category = .beginGroup
      · rw [braces_opening opens, braces_opening (token.category_bare.trans opens), ih]
      by_cases closes : token.category = .endGroup
      · cases depth with
        | zero => simp [braces, closes]
        | succ depth =>
            rw [braces_closing closes, braces_closing (token.category_bare.trans closes), ih]
      · rw [braces_other opens closes, braces_other (by simpa) (by simpa), ih]

/-- A group is read as a whole. -/
theorem Grouped.group_of_ahead {behind : List Token} (inside : Grouped content)
    (closes : closing.bare = .endGroup)
    (left : input.ahead table = content.map Token.bare ++ closing.bare :: behind) :
    ∃ found rest, Input.group table 0 input = (some found, rest) ∧
      found.map Token.bare = content.map Token.bare ∧ rest.ahead table = behind :=
  Input.group_of_ahead left (by rw [closes]; rfl) (by rw [braces_bare, inside.braces])

/-! ## Delimiters -/

section Delimiters

variable {command : String} {delimiter argument read : List Token} {token : Token} {rest : Input}

/-- The first place outside of groups at which the delimiter stands is behind the
argument. -/
def Delimits (delimiter argument : List Token) : Prop :=
  ∀ before behind, braces 0 before = some 0 →
    (argument ++ delimiter).map Token.bare = before ++ delimiter.map Token.bare ++ behind →
    behind = []

/-- It is enough to look at the places inside of the argument. -/
theorem delimits_of_forall (absent : ∀ place < argument.length,
      braces 0 (argument.take place) = some 0 →
      ¬ delimiter.map Token.bare <+: ((argument ++ delimiter).map Token.bare).drop place) :
    Delimits delimiter argument := by
  intro before behind outside equal
  refine Classical.byContradiction fun more => ?_
  have length := congrArg List.length equal
  simp only [List.length_map, List.length_append] at length
  have inside : before.length < argument.length := by
    have := List.length_pos_iff.mpr more
    omega
  have isPrefix : before = (argument.take before.length).map Token.bare := by
    rw [List.map_take, ← List.take_append_of_le_length (by simpa using Nat.le_of_lt inside),
      ← List.map_append, equal, List.append_assoc, List.take_left]
  refine absent before.length inside ?_ ⟨behind, ?_⟩
  · rw [← braces_bare, ← isPrefix, outside]
  · rw [equal, List.append_assoc, List.drop_left]

/-- One step of looking for a delimiter. -/
theorem delimited_next (found : input.next table = (some token, rest)) :
    delimited table command delimiter read input =
      if token.category = .beginGroup then
        match group table 0 rest with
        | (none, rest') => (.error .inputEnded, rest')
        | (some inside, rest') =>
            delimited table command delimiter
              (Token.endGroup :: inside.reverse ++ token :: read) rest'
      else if Token.sameList ((token :: read).take delimiter.length) delimiter then
        (.ok ((token :: read).drop delimiter.length).reverse, rest)
      else delimited table command delimiter (token :: read) rest := by
  rw [delimited]
  split
  · next equal =>
      rw [found] at equal
      cases equal
  · next equal =>
      rw [found] at equal
      cases equal
      split
      · split <;> rename_i read <;> rw [read]
      · rfl

/-- The delimiter is recognized if it stands at the end of what was read. -/
theorem sameList_take_reverse :
    Token.sameList (read.take delimiter.reverse.length) delimiter.reverse = true ↔
      delimiter.map Token.bare <:+ read.reverse.map Token.bare := by
  rw [Token.sameList_eq_true_iff, ← List.reverse_prefix, ← List.map_reverse, ← List.map_reverse,
    List.reverse_reverse, List.prefix_iff_eq_take, List.length_map, List.map_take, eq_comm]

/-- What stands before the delimiter is what was read without it. -/
theorem bare_drop_reverse
    (isRead : read.reverse.map Token.bare = argument ++ delimiter.map Token.bare) :
    (read.drop delimiter.reverse.length).reverse.map Token.bare = argument := by
  have length : read.length = argument.length + delimiter.length := by
    simpa using congrArg List.length isRead
  rw [List.reverse_drop, List.map_take, isRead, List.length_reverse, length,
    Nat.add_sub_cancel, List.take_left]

/-- Tokens that are not braces leave the depth as it is. -/
theorem braces_of_append_plain (noBraces : ∀ token ∈ delimiter, token.isBrace = false)
    {before : List Token} {depth : Nat}
    (balanced : braces 0 (before ++ delimiter.map Token.bare) = some depth) :
    braces 0 before = some depth := by
  rw [braces_bind] at balanced
  cases open? : braces 0 before with
  | none => simp [open?] at balanced
  | some middle =>
      rwa [open?, Option.bind_some, braces_bare, (Grouped.ofPlain noBraces).braces] at balanced

/-- An argument is read up to its delimiter.  A part of the input has been read
already, outside of all groups. -/
theorem delimited_of_grouped (noBraces : ∀ token ∈ delimiter, token.isBrace = false)
    (nonempty : delimiter ≠ []) (delimits : Delimits delimiter argument)
    {todo : List Token} (grouped : Grouped todo) (unfinished : todo ≠ []) {done : List Token}
    (whole : (done ++ todo).map Token.bare = (argument ++ delimiter).map Token.bare)
    (isRead : read.reverse.map Token.bare = done.map Token.bare)
    (outside : braces 0 done = some 0) {behind : List Token}
    (left : input.ahead table = todo.map Token.bare ++ behind) :
    ∃ found rest, delimited table command delimiter.reverse read input = (.ok found, rest) ∧
      found.map Token.bare = argument.map Token.bare ∧ rest.ahead table = behind := by
  induction grouped generalizing done read input with
  | nil => exact absurd rfl unfinished
  | @plain token todo noBrace _ ih =>
      obtain ⟨next, rest, found, same, following⟩ := next_of_ahead left
      obtain ⟨notOpening, notClosing⟩ := Token.category_of_not_isBrace noBrace
      have notGroup : next.category ≠ .beginGroup := by
        rwa [Token.category_eq same]
      have nowRead : (next :: read).reverse.map Token.bare = (done ++ [token]).map Token.bare := by
        rw [List.reverse_cons, List.map_append, isRead, List.map_append, List.map_singleton,
          List.map_singleton, same]
      have stillOutside : braces 0 (done ++ [token]) = some 0 := by
        rw [braces_append outside, braces_other notOpening notClosing, braces]
      have stillWhole : (done ++ [token] ++ todo).map Token.bare =
          (argument ++ delimiter).map Token.bare := by
        rw [← whole, List.append_assoc, List.singleton_append]
      rw [delimited_next found, if_neg notGroup]
      by_cases ends : delimiter.map Token.bare <:+ (done ++ [token]).map Token.bare
      · obtain ⟨before, equal⟩ := ends
        have outsideBefore : braces 0 before = some 0 :=
          braces_of_append_plain noBraces (by rw [equal, braces_bare, stillOutside])
        have finished : todo = [] := List.map_eq_nil_iff.mp
          (delimits before _ outsideBefore (by rw [← stillWhole, List.map_append, equal]))
        subst finished
        have isWhole : (done ++ [token]).map Token.bare =
            argument.map Token.bare ++ delimiter.map Token.bare := by
          rw [← List.map_append, ← stillWhole, List.append_nil]
        have isEnd := sameList_take_reverse.mpr
          (⟨before, equal.trans nowRead.symm⟩ :
            delimiter.map Token.bare <:+ (next :: read).reverse.map Token.bare)
        rw [if_pos isEnd]
        exact ⟨_, rest, rfl, bare_drop_reverse (nowRead.trans isWhole), following⟩
      · rw [if_neg fun isEnd => ends (nowRead ▸ sameList_take_reverse.mp isEnd)]
        refine ih ?_ stillWhole nowRead stillOutside following
        rintro rfl
        refine ends ⟨argument.map Token.bare, ?_⟩
        rw [← List.map_append, ← stillWhole, List.append_nil]
  | @group opening closing content todo opens inside closes _ _ ih =>
      rw [List.map_cons, List.map_append, List.map_cons, List.cons_append, List.append_assoc,
        List.cons_append] at left
      obtain ⟨next, middle, found, same, following⟩ := next_of_ahead left
      obtain ⟨group, rest, isGroup, sameContent, last⟩ := inside.group_of_ahead closes following
      rw [delimited_next found, if_pos ((Token.category_eq same).trans opens), isGroup]
      have stillWhole : (done ++ opening :: (content ++ [closing]) ++ todo).map Token.bare =
          (argument ++ delimiter).map Token.bare := by
        rw [← whole]
        simp
      refine ih ?_ stillWhole ?_ ?_ last
      · -- A brace cannot be the last token of the delimiter.
        rintro rfl
        have last : closing.bare = (delimiter.getLast nonempty).bare := by
          have same := congrArg List.getLast? stillWhole
          simpa [List.getLast?_append, List.getLast?_cons, List.getLast?_eq_some_getLast nonempty]
            using same
        have noBrace := noBraces _ (List.getLast_mem nonempty)
        rw [Token.isBrace, ← Token.category_bare, ← last, closes] at noBrace
        simp [Token.endGroup] at noBrace
      · have inOrder : (Token.endGroup :: group.reverse ++ next :: read).reverse =
            read.reverse ++ next :: (group ++ [Token.endGroup]) := by simp
        rw [inOrder]
        simp only [List.map_append, List.map_cons, List.map_nil, isRead, same, sameContent, closes]
        rfl
      · rw [braces_append outside, braces_opening opens, braces_append (inside.braces 1),
          braces_closing (category_of_closes closes), braces]

end Delimiters

/-! ## Brackets -/

/-- The brackets outside of groups match, and so do the braces. -/
inductive Bracketed (opening closing : Char) : List Token → Prop where
  | nil : Bracketed opening closing []
  | plain {token : Token} {tokens : List Token} (noBrace : token.isBrace = false)
      (notOpening : token.isChar opening = false) (notClosing : token.isChar closing = false)
      (following : Bracketed opening closing tokens) : Bracketed opening closing (token :: tokens)
  | group {first last : Token} {content tokens : List Token}
      (opens : first.category = .beginGroup) (inside : Grouped content)
      (closes : last.bare = .endGroup) (following : Bracketed opening closing tokens) :
      Bracketed opening closing (first :: (content ++ last :: tokens))
  | pair {first last : Token} {content tokens : List Token}
      (noBrace : first.category ≠ .beginGroup) (opens : first.isChar opening)
      (inside : Bracketed opening closing content)
      (noBrace' : last.category ≠ .beginGroup) (closes : last.isChar closing)
      (following : Bracketed opening closing tokens) :
      Bracketed opening closing (first :: (content ++ last :: tokens))

section Brackets

variable {opening closing : Char} {token : Token} {rest : Input} {depth : Nat}

/-- One step of looking for a bracket. -/
theorem bracket_next (found : input.next table = (some token, rest)) :
    bracket table opening closing depth input =
      if token.category = .beginGroup then
        match group table 0 rest with
        | (none, rest') => (none, rest')
        | (some inside, rest') => enclose token inside (bracket table opening closing depth rest')
      else if token.isChar closing then
        match depth with
        | 0 => (some [], rest)
        | depth + 1 => prepend token (bracket table opening closing depth rest)
      else if opening ≠ closing ∧ token.isChar opening then
        prepend token (bracket table opening closing (depth + 1) rest)
      else prepend token (bracket table opening closing depth rest) := by
  rw [bracket]
  split
  · next equal =>
      rw [found] at equal
      cases equal
  · next equal =>
      rw [found] at equal
      cases equal
      split
      · split <;> rename_i read <;> rw [read]
      · rfl

/-- Put tokens before a list that was read behind them, if there is one. -/
def prependList (tokens : List Token) (read : Option (List Token) × Input) :
    Option (List Token) × Input :=
  (read.1.map (tokens ++ ·), read.2)

theorem prependList_nil (read : Option (List Token) × Input) : prependList [] read = read := by
  obtain ⟨list, rest⟩ := read
  cases list <;> rfl

theorem prepend_prependList (token : Token) (tokens : List Token)
    (read : Option (List Token) × Input) :
    prepend token (prependList tokens read) = prependList (token :: tokens) read := by
  simp [prepend, prependList, Function.comp_def]

theorem prependList_prependList (first second : List Token)
    (read : Option (List Token) × Input) :
    prependList first (prependList second read) = prependList (first ++ second) read := by
  simp [prependList, Function.comp_def]

theorem enclose_prependList (token : Token) (inside tokens : List Token)
    (read : Option (List Token) × Input) :
    enclose token inside (prependList tokens read) =
      prependList (token :: (inside ++ Token.endGroup :: tokens)) read := by
  simp [enclose, prependList, Function.comp_def]

theorem bracket_plain (noBrace : token.category ≠ .beginGroup)
    (notOpening : token.isChar opening = false) (notClosing : token.isChar closing = false)
    (found : input.next table = (some token, rest)) :
    bracket table opening closing depth input =
      prepend token (bracket table opening closing depth rest) := by
  rw [bracket_next found, if_neg noBrace]
  simp [notOpening, notClosing]

theorem bracket_group {inside : List Token} {rest' : Input}
    (opens : token.category = .beginGroup) (found : input.next table = (some token, rest))
    (isGroup : group table 0 rest = (some inside, rest')) :
    bracket table opening closing depth input =
      enclose token inside (bracket table opening closing depth rest') := by
  rw [bracket_next found, if_pos opens, isGroup]

theorem bracket_opening (noBrace : token.category ≠ .beginGroup)
    (opens : token.isChar opening) (notClosing : token.isChar closing = false)
    (different : opening ≠ closing) (found : input.next table = (some token, rest)) :
    bracket table opening closing depth input =
      prepend token (bracket table opening closing (depth + 1) rest) := by
  rw [bracket_next found, if_neg noBrace, if_neg (by simp [notClosing]), if_pos ⟨different, opens⟩]

theorem bracket_inner_closing (noBrace : token.category ≠ .beginGroup)
    (closes : token.isChar closing) (found : input.next table = (some token, rest)) :
    bracket table opening closing (depth + 1) input =
      prepend token (bracket table opening closing depth rest) := by
  rw [bracket_next found, if_neg noBrace, if_pos closes]

theorem bracket_closing (noBrace : token.category ≠ .beginGroup)
    (closes : token.isChar closing) (found : input.next table = (some token, rest)) :
    bracket table opening closing 0 input = (some [], rest) := by
  rw [bracket_next found, if_neg noBrace, if_pos closes]

/-- A token is one character only. -/
theorem isChar_of_isChar (different : opening ≠ closing) (isOpening : token.isChar opening) :
    token.isChar closing = false := by
  simp only [Token.isChar, Bool.and_eq_true, beq_iff_eq] at isOpening
  simp [Token.isChar, isOpening.2, different]

/-- Tokens in which the brackets match are passed over, at every depth. -/
theorem Bracketed.bracket (different : opening ≠ closing)
    (bracketed : Bracketed opening closing tokens) {behind : List Token}
    (left : input.ahead table = tokens.map Token.bare ++ behind) (depth : Nat) :
    ∃ found rest, found.map Token.bare = tokens.map Token.bare ∧ rest.ahead table = behind ∧
      Input.bracket table opening closing depth input =
        prependList found (Input.bracket table opening closing depth rest) := by
  induction bracketed generalizing depth input behind with
  | nil => exact ⟨[], input, rfl, left, (prependList_nil _).symm⟩
  | plain noBrace notOpening notClosing _ ih =>
      obtain ⟨next, rest, read, same, following⟩ := next_of_ahead left
      obtain ⟨tokens, final, sameTokens, last, goesOn⟩ := ih following depth
      refine ⟨next :: tokens, final, ?_, last, ?_⟩
      · rw [List.map_cons, same, sameTokens, List.map_cons]
      · have noBrace := (Token.category_of_not_isBrace noBrace).1
        rw [← Token.category_eq same] at noBrace
        rw [← Token.isChar_eq same] at notOpening notClosing
        rw [bracket_plain noBrace notOpening notClosing read, goesOn, prepend_prependList]
  | group opens inside closes _ ih =>
      rw [List.map_cons, List.map_append, List.map_cons, List.cons_append, List.append_assoc,
        List.cons_append] at left
      obtain ⟨next, middle, read, same, following⟩ := next_of_ahead left
      obtain ⟨content, rest, isGroup, sameContent, behindGroup⟩ :=
        inside.group_of_ahead closes following
      obtain ⟨tokens, final, sameTokens, last, goesOn⟩ := ih behindGroup depth
      refine ⟨next :: (content ++ Token.endGroup :: tokens), final, ?_, last, ?_⟩
      · simp only [List.map_cons, List.map_append, same, sameContent, sameTokens, closes]
        rfl
      · rw [bracket_group ((Token.category_eq same).trans opens) read isGroup, goesOn,
          enclose_prependList]
  | pair noBrace opens _ noBrace' closes _ insideIh followingIh =>
      rw [List.map_cons, List.map_append, List.map_cons, List.cons_append, List.append_assoc,
        List.cons_append] at left
      obtain ⟨first, atContent, read, same, content⟩ := next_of_ahead left
      obtain ⟨inner, atLast, sameInner, lastAhead, throughInner⟩ := insideIh content (depth + 1)
      obtain ⟨last, atRest, read', same', rest⟩ := next_of_ahead lastAhead
      obtain ⟨tokens, final, sameTokens, ends, throughRest⟩ := followingIh rest depth
      refine ⟨first :: (inner ++ last :: tokens), final, ?_, ends, ?_⟩
      · simp only [List.map_cons, List.map_append, same, same', sameInner, sameTokens]
      · rw [← Token.category_eq same] at noBrace
        rw [← Token.category_eq same'] at noBrace'
        rw [← Token.isChar_eq same] at opens
        rw [← Token.isChar_eq same'] at closes
        rw [bracket_opening noBrace opens (isChar_of_isChar different opens) different read,
          throughInner, bracket_inner_closing noBrace' closes read', throughRest,
          prepend_prependList, prepend_prependList, prependList_prependList]
        rfl

/-- An argument in brackets. -/
theorem Bracketed.bracketed (different : opening ≠ closing)
    (isBracketed : Bracketed opening closing tokens) {first last : Token} {behind : List Token}
    (opens : first.isChar opening) (notSpace : first.category ≠ .space)
    (closes : last.isChar closing) (noBrace : last.category ≠ .beginGroup)
    (left : input.ahead table =
      first.bare :: (tokens.map Token.bare ++ last.bare :: behind)) :
    ∃ found rest, Input.bracketed table opening closing input = (.ok (some found), rest) ∧
      found.map Token.bare = tokens.map Token.bare ∧ rest.ahead table = behind := by
  have unskipped : (input.skipSpaces table).ahead table =
      first.bare :: (tokens.map Token.bare ++ last.bare :: behind) := by
    rw [ahead_skipSpaces, left, List.dropWhile_cons_of_neg]
    simpa [isSpace] using notSpace
  obtain ⟨next, middle, read, same, following⟩ := next_of_ahead unskipped
  obtain ⟨found, atLast, sameTokens, lastAhead, through⟩ :=
    isBracketed.bracket different following 0
  obtain ⟨final, rest, read', same', ends⟩ := next_of_ahead lastAhead
  rw [← Token.isChar_eq same] at opens
  rw [← Token.isChar_eq same'] at closes
  rw [← Token.category_eq same'] at noBrace
  refine ⟨found, rest, ?_, sameTokens, ends⟩
  rw [Input.bracketed, read]
  simp [opens, through, bracket_closing noBrace closes read', prependList]

end Brackets

end Input

end TexTree
