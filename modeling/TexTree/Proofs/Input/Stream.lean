import TexTree.Input.Argument
import TexTree.Proofs.Input.Draining

/-!
# The input as a stream of tokens

As long as the categories of characters do not change, the stack of sources is as
good as the list of the tokens that are left (`Input.ahead`).  Reading takes the
first of them, and tokens that are put back come before them.

The position of a token matters only for messages.  Therefore the list is made of
tokens without positions, and the readers of groups and arguments are described
on it.
-/

namespace TexTree

namespace Token

/-- The token without its position. -/
def bare (token : Token) : Token := token.at? none

@[simp] theorem category_bare (token : Token) : token.bare.category = token.category := rfl

@[simp] theorem text_bare (token : Token) : token.bare.text = token.text := rfl

@[simp] theorem bare_at? (token : Token) (position : Option Position) :
    (token.at? position).bare = token.bare := rfl

@[simp] theorem isControl_bare (token : Token) : token.bare.isControl = token.isControl := rfl

@[simp] theorem isChar_bare (token : Token) (character : Char) :
    token.bare.isChar character = token.isChar character := rfl

@[simp] theorem display_bare (token : Token) : token.bare.display = token.display := rfl

theorem displayList_bare (tokens : List Token) :
    displayList (tokens.map bare) = displayList tokens := by
  unfold displayList
  rw [List.map_map]
  rfl

end Token

namespace Input

variable {table : CategoryTable} {input rest : Input}

/-- The tokens that are left, without their positions. -/
def ahead (table : CategoryTable) (input : Input) : List Token :=
  (input.drain table).1.map Token.bare

theorem ahead_of_next_none (found : input.next table = (none, rest)) :
    input.ahead table = [] := by
  rw [ahead, drain_of_next_none found, List.map_nil]

theorem ahead_of_next {token : Token} (found : input.next table = (some token, rest)) :
    input.ahead table = token.bare :: rest.ahead table := by
  rw [ahead, drain_of_next found, List.map_cons]
  rfl

/-- Reading takes the first token that is left. -/
theorem next_of_ahead {first : Token} {tokens : List Token}
    (left : input.ahead table = first :: tokens) :
    ∃ token rest, input.next table = (some token, rest) ∧ token.bare = first ∧
      rest.ahead table = tokens := by
  cases found : input.next table with
  | mk result rest =>
      cases result with
      | none =>
          rw [ahead_of_next_none found] at left
          cases left
      | some token =>
          rw [ahead_of_next found] at left
          cases left
          exact ⟨token, rest, rfl, rfl, rfl⟩

/-- Reading gives nothing when no token is left. -/
theorem next_of_ahead_nil (left : input.ahead table = []) :
    input.next table = (none, empty) := by
  cases found : input.next table with
  | mk result rest =>
      cases result with
      | none =>
          rw [eq_empty_of_next_none found]
      | some token =>
          rw [ahead_of_next found] at left
          cases left

@[simp] theorem ahead_empty : empty.ahead table = [] := by
  rw [ahead, drain_empty, List.map_nil]

/-! ## Pushing tokens -/

/-- Tokens that are pushed are read first. -/
theorem ahead_pushTokens (tokens : List Token) (input : Input) :
    (input.pushTokens tokens).ahead table = tokens.map Token.bare ++ input.ahead table := by
  rw [ahead, drain_pushTokens, List.map_append]
  rfl

theorem ahead_putBack (token : Token) (input : Input) :
    (input.putBack token).ahead table = token.bare :: input.ahead table :=
  ahead_pushTokens [token] input

/-! ## Readers -/

/-- Whether a token is a space. -/
def isSpace (token : Token) : Bool := token.category == .space

theorem ahead_skipSpaces (input : Input) :
    (input.skipSpaces table).ahead table = (input.ahead table).dropWhile isSpace := by
  fun_induction skipSpaces table input with
  | case1 input rest found =>
      have exhausted := ahead_of_next_none found
      have same := found.symm.trans (next_of_ahead_nil exhausted)
      rw [exhausted, (Prod.mk.inj same).2]
      simp
  | case2 input token rest found blank ih =>
      rw [ih, ahead_of_next found, List.dropWhile_cons_of_pos]
      simp [isSpace, blank]
  | case3 input token rest found visible =>
      rw [ahead_putBack, ahead_of_next found, List.dropWhile_cons_of_neg]
      simp [isSpace, visible]

/-- How many groups are open behind the tokens, with so many open before them.  Nothing
if a group is closed that was not opened. -/
def braces : Nat → List Token → Option Nat
  | depth, [] => some depth
  | depth, token :: rest =>
      match token.category, depth with
      | .endGroup, 0 => none
      | .endGroup, depth + 1 => braces depth rest
      | .beginGroup, depth => braces (depth + 1) rest
      | _, depth => braces depth rest

theorem braces_opening {token : Token} (opens : token.category = .beginGroup) (depth : Nat)
    (rest : List Token) : braces depth (token :: rest) = braces (depth + 1) rest := by
  simp [braces, opens]

theorem braces_closing {token : Token} (closes : token.category = .endGroup) (depth : Nat)
    (rest : List Token) : braces (depth + 1) (token :: rest) = braces depth rest := by
  simp [braces, closes]

theorem braces_other {token : Token} (notOpening : token.category ≠ .beginGroup)
    (notClosing : token.category ≠ .endGroup) (depth : Nat) (rest : List Token) :
    braces depth (token :: rest) = braces depth rest := by
  rw [braces.eq_def]
  dsimp only
  split <;> simp_all

/-- The braces of one list of tokens and then those of another one. -/
theorem braces_bind (depth : Nat) (first second : List Token) :
    braces depth (first ++ second) = (braces depth first).bind fun middle =>
      braces middle second := by
  induction first generalizing depth with
  | nil => rfl
  | cons token rest ih =>
      rw [List.cons_append]
      by_cases opens : token.category = .beginGroup
      · rw [braces_opening opens, braces_opening opens, ih]
      by_cases closes : token.category = .endGroup
      · cases depth with
        | zero => simp [braces, closes]
        | succ depth => rw [braces_closing closes, braces_closing closes, ih]
      · rw [braces_other opens closes, braces_other opens closes, ih]

theorem braces_append {first second : List Token} {depth middle : Nat}
    (before : braces depth first = some middle) :
    braces depth (first ++ second) = braces middle second := by
  rw [braces_bind, before, Option.bind_some]

/-- Braces match in the same way inside of more groups. -/
theorem braces_add {tokens : List Token} {depth final : Nat}
    (balanced : braces depth tokens = some final) (more : Nat) :
    braces (depth + more) tokens = some (final + more) := by
  induction tokens generalizing depth with
  | nil =>
      rw [braces, Option.some.injEq] at balanced
      rw [braces, balanced]
  | cons token rest ih =>
      by_cases opens : token.category = .beginGroup
      · rw [braces_opening opens] at balanced ⊢
        rw [Nat.add_right_comm]
        exact ih balanced
      by_cases closes : token.category = .endGroup
      · cases depth with
        | zero => simp [braces, closes] at balanced
        | succ depth =>
            rw [braces_closing closes] at balanced
            rw [Nat.add_right_comm, braces_closing closes]
            exact ih balanced
      · rw [braces_other opens closes] at balanced ⊢
        exact ih balanced

/-- One step of reading a group. -/
theorem group_next {token : Token} (found : input.next table = (some token, rest))
    (depth : Nat) :
    group table depth input =
      match token.category, depth with
      | .endGroup, 0 => (some [], rest)
      | .endGroup, depth + 1 => prepend token (group table depth rest)
      | .beginGroup, depth => prepend token (group table (depth + 1) rest)
      | _, depth => prepend token (group table depth rest) := by
  rw [group]
  split
  · next equal =>
      rw [found] at equal
      cases equal
  · next equal =>
      rw [found] at equal
      cases equal
      rfl

/-- A group is read up to the brace that closes it. -/
theorem group_of_ahead {inside behind : List Token} {closing : Token} {depth : Nat}
    (left : input.ahead table = inside ++ closing :: behind)
    (closes : closing.category = .endGroup) (balanced : braces depth inside = some 0) :
    ∃ tokens rest, group table depth input = (some tokens, rest) ∧
      tokens.map Token.bare = inside ∧ rest.ahead table = behind := by
  induction inside generalizing input depth with
  | nil =>
      obtain ⟨token, rest, found, same, following⟩ := next_of_ahead left
      rw [← same] at closes
      rw [braces, Option.some.injEq] at balanced
      subst balanced
      refine ⟨[], rest, ?_, rfl, following⟩
      rw [group_next found, show token.category = .endGroup from closes]
  | cons first inner ih =>
      obtain ⟨token, rest, found, same, following⟩ := next_of_ahead left
      have category : token.category = first.category := by
        rw [← same]
        rfl
      have goesOn : ∀ {depth'}, braces depth' inner = some 0 →
          group table depth input = prepend token (group table depth' rest) →
          ∃ tokens final, group table depth input = (some tokens, final) ∧
            tokens.map Token.bare = first :: inner ∧ final.ahead table = behind := by
        intro depth' isBalanced step
        obtain ⟨tokens, final, read, bareTokens, last⟩ := ih following isBalanced
        refine ⟨token :: tokens, final, ?_, ?_, last⟩
        · rw [step, read]
          rfl
        · rw [List.map_cons, same, bareTokens]
      by_cases opens : first.category = .beginGroup
      · rw [braces_opening opens] at balanced
        apply goesOn balanced
        rw [group_next found, category, opens]
      by_cases isClosing : first.category = .endGroup
      · cases depth with
        | zero => simp [braces, isClosing] at balanced
        | succ depth =>
            rw [braces_closing isClosing] at balanced
            apply goesOn balanced
            rw [group_next found, category, isClosing]
      · rw [braces_other opens isClosing] at balanced
        apply goesOn balanced
        rw [group_next found, category]
        split <;> simp_all

/-- An argument in braces. -/
theorem argument_of_ahead {inside behind : List Token} {opening closing : Token}
    (left : input.ahead table = opening :: (inside ++ closing :: behind))
    (opens : opening.category = .beginGroup) (closes : closing.category = .endGroup)
    (balanced : braces 0 inside = some 0) :
    ∃ tokens rest, argument table input = (.ok (some (tokens, true)), rest) ∧
      tokens.map Token.bare = inside ∧ rest.ahead table = behind := by
  have unskipped : (input.skipSpaces table).ahead table =
      opening :: (inside ++ closing :: behind) := by
    rw [ahead_skipSpaces, left, List.dropWhile_cons_of_neg]
    simp [isSpace, opens]
  obtain ⟨token, middle, found, same, following⟩ := next_of_ahead unskipped
  obtain ⟨tokens, rest, read, bareTokens, last⟩ := group_of_ahead following closes balanced
  rw [← same] at opens
  refine ⟨tokens, rest, ?_, bareTokens, last⟩
  rw [argument, found]
  simp only [show token.category = .beginGroup from opens, read]

/-- The name of an environment in braces. -/
theorem nameArgument_of_ahead {inside behind : List Token} {opening closing : Token}
    (left : input.ahead table = opening :: (inside ++ closing :: behind))
    (opens : opening.category = .beginGroup) (closes : closing.category = .endGroup)
    (balanced : braces 0 inside = some 0) :
    ∃ rest, nameArgument table input =
        (.ok (Text.trim (Token.displayList inside)), rest) ∧ rest.ahead table = behind := by
  obtain ⟨tokens, rest, read, bareTokens, last⟩ := argument_of_ahead left opens closes balanced
  refine ⟨rest, ?_, last⟩
  rw [nameArgument, read, ← bareTokens, Token.displayList_bare]

/-- An argument in brackets that is left out. -/
theorem bracketed_of_ahead {first : Token} {behind : List Token} {opening closing : Char}
    (left : (input.ahead table).dropWhile isSpace = first :: behind)
    (absent : first.isChar opening = false) :
    ∃ rest, bracketed table opening closing input = (.ok none, rest) ∧
      rest.ahead table = first :: behind := by
  rw [← ahead_skipSpaces] at left
  obtain ⟨token, rest, found, same, following⟩ := next_of_ahead left
  rw [← same] at absent
  refine ⟨rest.putBack token, ?_, ?_⟩
  · rw [bracketed, found]
    simp [show token.isChar opening = false from absent]
  · rw [ahead_putBack, same, following]

end Input

end TexTree
