import TexTree.Input

/-!
# The input is one stream

Under a fixed table of categories the stack of sources is as good as the list of the tokens that
are left in it.  Tokens that are pushed come before them, a token that is put back is read again,
with its position, and a text that is pushed is read to its end first.

So whoever reads and pushes cannot tell the stack from that list, whatever the order of the
operations (`Input.behaves_as_stream`).
-/

namespace TexTree

namespace Input

variable {table : CategoryTable} {input rest : Input} {token : Token}

/-! ## Reading -/

theorem drain_of_next_none (found : input.next table = (none, rest)) :
    (input.drain table).1 = [] := by
  rw [drain]
  split
  · rfl
  · next equal =>
      rw [found] at equal
      cases equal

theorem drain_of_next (found : input.next table = (some token, rest)) :
    (input.drain table).1 = token :: (rest.drain table).1 := by
  rw [drain]
  split
  · next equal =>
      rw [found] at equal
      cases equal
  · next equal =>
      rw [found] at equal
      cases equal
      rfl

theorem drain_congr {other : Input} (same : input.next table = other.next table) :
    (input.drain table).1 = (other.drain table).1 := by
  cases found : other.next table with
  | mk result rest =>
      cases result with
      | none => rw [drain_of_next_none found, drain_of_next_none (same.trans found)]
      | some token => rw [drain_of_next found, drain_of_next (same.trans found)]

theorem nextOf_none {sources left : List Source} (found : nextOf table sources = (none, left)) :
    left = [] := by
  fun_induction nextOf table sources with
  | case1 => simpa using found.symm
  | case2 _ ih => exact ih found
  | case3 => simp at found
  | case4 => simp at found
  | case5 _ _ _ _ ih => exact ih found

/-- Nothing is read only when no source is left. -/
theorem sources_of_next_none (found : input.next table = (none, rest)) : rest.sources = [] := by
  simp only [next, Prod.mk.injEq] at found
  obtain ⟨isNone, rfl⟩ := found
  exact nextOf_none (Prod.ext isNone rfl)

theorem eq_empty_of_next_none (found : input.next table = (none, rest)) : rest = empty :=
  congrArg Input.mk (sources_of_next_none found)

@[simp] theorem drain_empty : (empty.drain table).1 = [] := by
  have found : empty.next table = (none, empty) := rfl
  exact drain_of_next_none found

/-! ## Pushing -/

/-- An empty list of tokens on top makes no difference. -/
theorem drain_skip (sources : List Source) :
    (drain table ⟨.tokens [] :: sources⟩).1 = (drain table ⟨sources⟩).1 :=
  drain_congr (by simp only [next, nextOf])

theorem drain_tokens (tokens pending : List Token) (sources : List Source) :
    (drain table ⟨.tokens (tokens ++ pending) :: sources⟩).1 =
      tokens ++ (drain table ⟨.tokens pending :: sources⟩).1 := by
  induction tokens with
  | nil => rfl
  | cons token rest ih =>
      have found : next table ⟨.tokens (token :: rest ++ pending) :: sources⟩ =
          (some token, ⟨.tokens (rest ++ pending) :: sources⟩) := rfl
      rw [drain_of_next found, ih, List.cons_append]

theorem drain_fresh (tokens : List Token) (sources : List Source) :
    (drain table ⟨.tokens tokens :: sources⟩).1 = tokens ++ (drain table ⟨sources⟩).1 := by
  rw [← drain_skip sources, ← drain_tokens, List.append_nil]

/-- Tokens that are pushed are read first, in their order. -/
theorem drain_pushTokens (tokens : List Token) (input : Input) :
    ((input.pushTokens tokens).drain table).1 = tokens ++ (input.drain table).1 := by
  obtain ⟨sources⟩ := input
  cases tokens with
  | nil => rfl
  | cons token more =>
      match sources with
      | .tokens pending :: rest => exact drain_tokens (token :: more) pending rest
      | [] => exact drain_fresh (token :: more) []
      | .text reader :: rest => exact drain_fresh (token :: more) (.text reader :: rest)

theorem drain_putBack (token : Token) (input : Input) :
    ((input.putBack token).drain table).1 = token :: (input.drain table).1 :=
  drain_pushTokens [token] input

/-- A text is read to its end, and then what stands below it. -/
theorem drain_text (reader : Reader) (sources : List Source) :
    (drain table ⟨.text reader :: sources⟩).1 =
      (reader.tokens table).1 ++ (drain table ⟨sources⟩).1 := by
  fun_induction Reader.tokens table reader with
  | case1 reader final found =>
      exact drain_congr (by simp only [next, nextOf, found])
  | case2 reader token rest found more final isRest ih =>
      have isNext : next table ⟨.text reader :: sources⟩ =
          (some token, ⟨.text rest :: sources⟩) := by
        simp only [next, nextOf, found]
      rw [drain_of_next isNext, ih, isRest, List.cons_append]

theorem drain_pushText (text file : String) (input : Input) :
    ((input.pushText text file).drain table).1 =
      ((Reader.ofText text file).tokens table).1 ++ (input.drain table).1 :=
  drain_text (.ofText text file) input.sources

/-! ## Sequences of operations -/

/-- What can be done with the input. -/
inductive Operation where
  | read
  | pushTokens (tokens : List Token)
  | putBack (token : Token)
  | pushText (text file : String)

namespace Operation

/-- The token that is read, if any, and the input behind the operation. -/
def run (table : CategoryTable) : Operation → Input → Option Token × Input
  | read, input => input.next table
  | pushTokens tokens, input => (none, input.pushTokens tokens)
  | putBack token, input => (none, input.putBack token)
  | pushText text file, input => (none, input.pushText text file)

/-- The same on a list of tokens. -/
def onList (table : CategoryTable) : Operation → List Token → Option Token × List Token
  | read, left => (left.head?, left.tail)
  | pushTokens tokens, left => (none, tokens ++ left)
  | putBack token, left => (none, token :: left)
  | pushText text file, left => (none, ((Reader.ofText text file).tokens table).1 ++ left)

/-- An operation reads the same token from the input as from the tokens that are left in it, and
leaves the same tokens. -/
theorem run_eq (table : CategoryTable) (operation : Operation) (input : Input) :
    (operation.run table input).1 = (operation.onList table (input.drain table).1).1 ∧
      ((operation.run table input).2.drain table).1 =
        (operation.onList table (input.drain table).1).2 := by
  cases operation with
  | read =>
      cases found : input.next table with
      | mk result rest =>
          cases result with
          | none =>
              simp [run, onList, found, drain_of_next_none found, eq_empty_of_next_none found]
          | some token => simp [run, onList, found, drain_of_next found]
  | pushTokens tokens => exact ⟨rfl, drain_pushTokens tokens input⟩
  | putBack token => exact ⟨rfl, drain_putBack token input⟩
  | pushText text file => exact ⟨rfl, drain_pushText text file input⟩

/-- The tokens that are read by one operation after the other, and the input behind them. -/
def runAll (table : CategoryTable) : List Operation → Input → List (Option Token) × Input
  | [], input => ([], input)
  | operation :: operations, input =>
      let (result, rest) := operation.run table input
      let (results, final) := runAll table operations rest
      (result :: results, final)

/-- The same on a list of tokens. -/
def onListAll (table : CategoryTable) :
    List Operation → List Token → List (Option Token) × List Token
  | [], left => ([], left)
  | operation :: operations, left =>
      let (result, rest) := operation.onList table left
      let (results, final) := onListAll table operations rest
      (result :: results, final)

theorem runAll_eq (operations : List Operation) (input : Input) :
    (runAll table operations input).1 = (onListAll table operations (input.drain table).1).1 ∧
      ((runAll table operations input).2.drain table).1 =
        (onListAll table operations (input.drain table).1).2 := by
  induction operations generalizing input with
  | nil => exact ⟨rfl, rfl⟩
  | cons operation operations ih =>
      obtain ⟨sameResult, sameRest⟩ := operation.run_eq table input
      obtain ⟨sameResults, sameFinal⟩ := ih (operation.run table input).2
      rw [sameRest] at sameResults sameFinal
      exact ⟨List.cons_eq_cons.mpr ⟨sameResult, sameResults⟩, sameFinal⟩

end Operation

end Input

/-- The input is one stream of tokens.  What is pushed comes in front of the tokens that are
left; a token that has been read can be put back; nothing is read only when no source is left;
and every sequence of operations reads the same tokens from the sources as from the list of the
tokens that are left. -/
theorem Input.behaves_as_stream (table : CategoryTable) (input : Input) :
    (∀ tokens, ((input.pushTokens tokens).drain table).1 = tokens ++ (input.drain table).1) ∧
    (∀ token, ((input.putBack token).drain table).1 = token :: (input.drain table).1) ∧
    (∀ text file, ((input.pushText text file).drain table).1 =
      ((Reader.ofText text file).tokens table).1 ++ (input.drain table).1) ∧
    (∀ token rest, input.next table = (some token, rest) →
      (input.drain table).1 = token :: (rest.drain table).1 ∧
      ((rest.putBack token).drain table).1 = (input.drain table).1) ∧
    (∀ rest, input.next table = (none, rest) →
      (input.drain table).1 = [] ∧ rest.sources = []) ∧
    ∀ operations,
      (Operation.runAll table operations input).1 =
        (Operation.onListAll table operations (input.drain table).1).1 ∧
      ((Operation.runAll table operations input).2.drain table).1 =
        (Operation.onListAll table operations (input.drain table).1).2 := by
  refine ⟨fun tokens => drain_pushTokens tokens input, fun token => drain_putBack token input,
    fun text file => drain_pushText text file input, fun token rest found => ?_,
    fun rest found => ⟨drain_of_next_none found, sources_of_next_none found⟩,
    fun operations => Operation.runAll_eq operations input⟩
  rw [drain_putBack, drain_of_next found]
  exact ⟨rfl, rfl⟩

/-- A text stands below a pending token.  That token is read and could be put back, then a letter of
the text is read, another token is put in front of the rest, and all is read up to the end. -/
theorem Input.behaves_as_stream_two :
    let input := (empty.pushText "ab" "f").pushTokens [.letter 'x']
    let rest : Input := ⟨.tokens [] :: (empty.pushText "ab" "f").sources⟩
    let operations : List Operation := [.read, .read, .putBack (.other '1'), .read, .read, .read]
    (next .initial input = (some (.letter 'x'), rest) ∧
      (drain .initial (putBack rest (.letter 'x'))).1 = (drain .initial input).1) ∧
    (Operation.runAll .initial operations input).1.map (·.map Token.text) =
      [some "x", some "a", none, some "1", some "b", none] ∧
    next .initial ⟨[.tokens []]⟩ = (none, empty) ∧ (drain .initial ⟨[.tokens []]⟩).1 = [] := by
  intro input rest operations
  have first : next .initial input = (some (.letter 'x'), rest) := rfl
  obtain ⟨-, -, -, again, -, same⟩ := behaves_as_stream .initial input
  obtain ⟨-, -, -, -, exhausted, -⟩ := behaves_as_stream .initial ⟨[.tokens []]⟩
  refine ⟨⟨first, (again _ _ first).2⟩, ?_, rfl, (exhausted empty rfl).1⟩
  rw [(same operations).1]
  decide +kernel

end TexTree
