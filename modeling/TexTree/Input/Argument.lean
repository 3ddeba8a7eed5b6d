import TexTree.Fault
import TexTree.Input
import TexTree.Text.Blank

/-!
# Arguments in the input

Reading groups, undelimited arguments and bracketed arguments from the input, as
they stand there and without expanding anything.  Each reader gives its result
together with the input behind it.  The readers end because every token that is
read makes the input smaller.
-/

namespace TexTree

namespace Input

/-- Put a token before a list that was read behind it, if there is one. -/
def prepend (token : Token) (read : Option (List Token) × Input) : Option (List Token) × Input :=
  (read.1.map (token :: ·), read.2)

/-- The input behind the spaces at its start. -/
def skipSpaces (table : CategoryTable) (input : Input) : Input :=
  match _found : input.next table with
  | (none, rest) => rest
  | (some token, rest) =>
      if token.category = .space then skipSpaces table rest else rest.putBack token
termination_by input.size
decreasing_by exact size_next _found

/-- The tokens up to the brace that closes a group, with so many further groups
open inside of it.  Nothing if the input ends before. -/
def group (table : CategoryTable) (depth : Nat) (input : Input) : Option (List Token) × Input :=
  match _found : input.next table with
  | (none, rest) => (none, rest)
  | (some token, rest) =>
      match token.category, depth with
      | .endGroup, 0 => (some [], rest)
      | .endGroup, depth + 1 => prepend token (group table depth rest)
      | .beginGroup, depth => prepend token (group table (depth + 1) rest)
      | _, depth => prepend token (group table depth rest)
termination_by input.size
decreasing_by all_goals exact size_next _found

theorem prepend_eq_some {token : Token} {read : Option (List Token) × Input}
    {tokens : List Token} {rest : Input} (found : prepend token read = (some tokens, rest)) :
    ∃ more, read = (some more, rest) ∧ tokens = token :: more := by
  obtain ⟨list, input⟩ := read
  cases list with
  | none => simp [prepend] at found
  | some more =>
      simp only [prepend, Option.map_some, Prod.mk.injEq, Option.some.injEq] at found
      exact ⟨more, by simp [found.2], found.1.symm⟩

/-- Reading a group makes the input smaller. -/
theorem size_group {table : CategoryTable} {depth : Nat} {input rest : Input}
    {tokens : List Token} (found : group table depth input = (some tokens, rest)) :
    rest.size < input.size := by
  fun_induction group table depth input generalizing tokens with
  | case1 => simp at found
  | case2 input token rest' equal =>
      simp only [Prod.mk.injEq] at found
      obtain ⟨_, rfl⟩ := found
      exact size_next equal
  | case3 input token rest' equal depth _ ih =>
      obtain ⟨more, read, _⟩ := prepend_eq_some found
      exact Nat.lt_trans (ih read) (size_next equal)
  | case4 input token rest' equal depth _ ih =>
      obtain ⟨more, read, _⟩ := prepend_eq_some found
      exact Nat.lt_trans (ih read) (size_next equal)
  | case5 input token rest' equal depth _ _ _ ih =>
      obtain ⟨more, read, _⟩ := prepend_eq_some found
      exact Nat.lt_trans (ih read) (size_next equal)

/-- A group whose opening brace is the given token, with its braces, before
whatever is read behind it. -/
def enclose (opening : Token) (inside : List Token) (read : Option (List Token) × Input) :
    Option (List Token) × Input :=
  (read.1.map fun behind => opening :: inside ++ Token.endGroup :: behind, read.2)

/-- The tokens of a formula through the character that closes it. -/
def formula (table : CategoryTable) (input : Input) : Option (List Token) × Input :=
  match _found : input.next table with
  | (none, rest) => (none, rest)
  | (some token, rest) =>
      if token.category = .beginGroup then
        match _inner : group table 0 rest with
        | (none, rest') => (none, rest')
        | (some inside, rest') => enclose token inside (formula table rest')
      else if token.category = .mathShift then (some [token], rest)
      else prepend token (formula table rest)
termination_by input.size
decreasing_by
  · exact Nat.lt_trans (size_group _inner) (size_next _found)
  · exact size_next _found

/-- The argument at the start of the input: a group without its braces, a
formula, or a single token; the flag tells whether it was a group.  Nothing where
a group or a token list ends. -/
def argument (table : CategoryTable) (input : Input) :
    Except Fault (Option (List Token × Bool)) × Input :=
  match (input.skipSpaces table).next table with
  | (none, rest) => (.ok none, rest)
  | (some token, rest) =>
      match token.category with
      | .beginGroup =>
          match group table 0 rest with
          | (some inside, rest') => (.ok (some (inside, true)), rest')
          | (none, rest') => (.error .inputEnded, rest')
      | .endOfList | .endGroup => (.ok none, rest.putBack token)
      | .mathShift =>
          match formula table rest with
          | (some inside, rest') => (.ok (some (token :: inside, false)), rest')
          | (none, rest') => (.error .inputEnded, rest')
      | _ => (.ok (some ([token], false)), rest)

/-- The tokens up to a closing character, with so many further pairs of brackets
open before it.  Groups are passed over as a whole. -/
def bracket (table : CategoryTable) (opening closing : Char) (depth : Nat) (input : Input) :
    Option (List Token) × Input :=
  match _found : input.next table with
  | (none, rest) => (none, rest)
  | (some token, rest) =>
      if token.category = .beginGroup then
        match _inner : group table 0 rest with
        | (none, rest') => (none, rest')
        | (some inside, rest') =>
            enclose token inside (bracket table opening closing depth rest')
      else if token.isChar closing then
        match depth with
        | 0 => (some [], rest)
        | depth + 1 => prepend token (bracket table opening closing depth rest)
      else if opening ≠ closing ∧ token.isChar opening then
        prepend token (bracket table opening closing (depth + 1) rest)
      else prepend token (bracket table opening closing depth rest)
termination_by input.size
decreasing_by
  · exact Nat.lt_trans (size_group _inner) (size_next _found)
  all_goals exact size_next _found

/-- The bracketed argument at the start of the input, if there is one. -/
def bracketed (table : CategoryTable) (opening closing : Char) (input : Input) :
    Except Fault (Option (List Token)) × Input :=
  match (input.skipSpaces table).next table with
  | (none, rest) => (.ok none, rest)
  | (some token, rest) =>
      if token.isChar opening then
        match bracket table opening closing 0 rest with
        | (some inside, rest') => (.ok (some inside), rest')
        | (none, rest') => (.error .inputEnded, rest')
      else (.ok none, rest.putBack token)

/-- The argument at the start of the input as a text without blanks around it. -/
def nameArgument (table : CategoryTable) (input : Input) : Except Fault String × Input :=
  match input.argument table with
  | (.ok (some (tokens, _)), rest) => (.ok (Text.trim (Token.displayList tokens)), rest)
  | (.ok none, rest) => (.error .inputEnded, rest)
  | (.error fault, rest) => (.error fault, rest)

/-- The tokens before the first one that the condition accepts, which is put
back. -/
def untilToken (table : CategoryTable) (stop : Token → Bool) (input : Input) :
    List Token × Input :=
  match _found : input.next table with
  | (none, rest) => ([], rest)
  | (some token, rest) =>
      if stop token then ([], rest.putBack token)
      else
        let (more, final) := untilToken table stop rest
        (token :: more, final)
termination_by input.size
decreasing_by exact size_next _found

/-- The tokens before the first one that the condition accepts, and that token,
which is taken from the input.  Nothing in its place if the input ends. -/
def throughToken (table : CategoryTable) (stop : Token → Bool) (input : Input) :
    List Token × Option Token × Input :=
  match _found : input.next table with
  | (none, rest) => ([], none, rest)
  | (some token, rest) =>
      if stop token then ([], some token, rest)
      else
        let (more, last, final) := throughToken table stop rest
        (token :: more, last, final)
termination_by input.size
decreasing_by exact size_next _found

end Input

end TexTree
