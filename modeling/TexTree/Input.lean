import TexTree.Reader

/-!
# The input stack

The input is a stack of sources: texts that are still to be cut into tokens, and
lists of tokens that were produced by expansion or put back after looking ahead.
Reading always takes from the topmost source; a source is dropped when it is
found empty.

Together the sources behave as one stream of tokens.  Each token that is read
makes the input smaller in the sense of `Input.size`, so that everything which
reads tokens without expanding them ends.
-/

namespace TexTree

/-- A source of tokens. -/
inductive Source where
  | tokens (pending : List Token)
  | text (reader : Reader)
  deriving DecidableEq, Repr, Inhabited

/-- A bound on the number of tokens that a source can still give, plus one for
the source itself. -/
def Source.size : Source → Nat
  | .tokens pending => pending.length + 1
  | .text reader => reader.unread + 1

/-- The stack of sources, the topmost first. -/
structure Input where
  sources : List Source
  deriving DecidableEq, Repr, Inhabited

namespace Input

/-- The input with nothing to read. -/
def empty : Input := ⟨[]⟩

/-- A bound on what is left to read. -/
def size (input : Input) : Nat :=
  input.sources.foldr (fun source bound => source.size + bound) 0

/-- Read a text next. -/
def pushText (input : Input) (text file : String) : Input :=
  ⟨.text (.ofText text file) :: input.sources⟩

/-- Read the tokens next. -/
def pushTokens (input : Input) (tokens : List Token) : Input :=
  match tokens, input.sources with
  | [], _ => input
  | tokens, .tokens pending :: rest => ⟨.tokens (tokens ++ pending) :: rest⟩
  | tokens, sources => ⟨.tokens tokens :: sources⟩

/-- Put one token back. -/
def putBack (input : Input) (token : Token) : Input := input.pushTokens [token]

/-- The next token of a stack of sources. -/
def nextOf (table : CategoryTable) : List Source → Option Token × List Source
  | [] => (none, [])
  | .tokens [] :: rest => nextOf table rest
  | .tokens (token :: pending) :: rest => (some token, .tokens pending :: rest)
  | .text reader :: rest =>
      match reader.next table with
      | (some token, reader') => (some token, .text reader' :: rest)
      | (none, _) => nextOf table rest

/-- The next token, or nothing when all sources are empty. -/
def next (table : CategoryTable) (input : Input) : Option Token × Input :=
  let (token, sources) := nextOf table input.sources
  (token, ⟨sources⟩)

theorem size_cons (source : Source) (rest : List Source) :
    size ⟨source :: rest⟩ = source.size + size ⟨rest⟩ := rfl

theorem size_nextOf {table : CategoryTable} {sources rest : List Source} {token : Token}
    (found : nextOf table sources = (some token, rest)) :
    size ⟨rest⟩ < size ⟨sources⟩ := by
  fun_induction nextOf table sources with
  | case1 => simp at found
  | case2 rest' ih =>
      have smaller := ih found
      simp only [size_cons]
      omega
  | case3 =>
      simp only [Prod.mk.injEq] at found
      obtain ⟨_, rfl⟩ := found
      simp [size_cons, Source.size]
  | case4 reader rest' token' reader' equal =>
      simp only [Prod.mk.injEq] at found
      obtain ⟨_, rfl⟩ := found
      have smaller := Reader.unread_next equal
      simp only [size_cons, Source.size]
      omega
  | case5 reader rest' reader' equal ih =>
      have smaller := ih found
      simp only [size_cons]
      omega

/-- Every token that is read makes the input smaller. -/
theorem size_next {table : CategoryTable} {input rest : Input} {token : Token}
    (found : input.next table = (some token, rest)) : rest.size < input.size := by
  simp only [next, Prod.mk.injEq] at found
  obtain ⟨first, rfl⟩ := found
  exact size_nextOf (Prod.ext first rfl)

/-- All tokens that are left, under one table, and the input behind them. -/
def drain (table : CategoryTable) (input : Input) : List Token × Input :=
  match _found : input.next table with
  | (none, rest) => ([], rest)
  | (some token, rest) =>
      let (more, final) := drain table rest
      (token :: more, final)
termination_by input.size
decreasing_by exact size_next _found

/-- Whether a source has nothing left to read. -/
def isExhausted : Source → Bool
  | .tokens pending => pending.isEmpty
  | .text reader => reader.atEnd

/-- Whether no source has anything left to read. -/
def isEmpty (input : Input) : Bool := input.sources.all isExhausted

/-- Stop the topmost text behind its current line. -/
def endInput (input : Input) : Input :=
  let rec go : List Source → List Source
    | [] => []
    | .text reader :: rest => .text reader.endInput :: rest
    | source :: rest => source :: go rest
  ⟨go input.sources⟩

/-- The topmost text. -/
def topText? (input : Input) : Option Reader :=
  input.sources.findSome? fun
    | .text reader => some reader
    | .tokens _ => none

/-- The position in the topmost text. -/
def position? (input : Input) : Option Position := input.topText?.map Reader.position

/-- The file that the topmost text comes from. -/
def file? (input : Input) : Option String := input.topText?.map Reader.file

/-- The next character, whatever its category.  From a pending token its first
character is taken, and the rest of its text is put back. -/
def readChar (input : Input) : Option Char × Input :=
  let rec go : List Source → Option Char × Input
    | [] => (none, empty)
    | .text reader :: rest =>
        let (character, reader') := reader.readChar
        (character, ⟨.text reader' :: rest⟩)
    | .tokens [] :: rest => go rest
    | .tokens (token :: pending) :: rest =>
        let left : Input := ⟨.tokens pending :: rest⟩
        match token.display.toList with
        | [] => (none, left)
        | character :: more => (some character, left.pushTokens (Token.ofText (String.ofList more)))
  go input.sources

/-- The text before the first occurrence of a mark, and the text behind it. -/
def splitAtMark? (mark : List Char) : List Char → Option (List Char × List Char)
  | [] => if mark.isEmpty then some ([], []) else none
  | character :: rest =>
      if mark.isPrefixOf (character :: rest) then
        some ([], (character :: rest).drop mark.length)
      else
        (splitAtMark? mark rest).map fun (before, after) => (character :: before, after)

/-- Convert pending tokens to text until the mark occurs in it.  Gives the text
so far, what is left of the tokens, and the text around the mark if it was
found. -/
def verbatimTokens (mark : List Char) :
    List Token → List Char → List Char × List Token × Option (List Char × List Char)
  | [], read => (read, [], none)
  | token :: pending, read =>
      let read' := read ++ token.display.toList
      match splitAtMark? mark read' with
      | some halves => (read', pending, some halves)
      | none => verbatimTokens mark pending read'

/-- The text up to a mark, which is passed as well.  Pending tokens are converted
back to text first; nothing if the topmost text ends before the mark. -/
def readVerbatim (mark : String) (input : Input) : Option String × Input :=
  let rec go : List Source → List Char → Option String × Input
    | [], _ => (none, empty)
    | .text reader :: rest, read =>
        let (found, reader') := reader.readUntil mark
        (found.map fun text => String.ofList read ++ text, ⟨.text reader' :: rest⟩)
    | .tokens pending :: rest, read =>
        match verbatimTokens mark.toList pending read with
        | (_, pending', some (before, after)) =>
            (some (String.ofList before),
              pushTokens ⟨.tokens pending' :: rest⟩ (Token.ofText (String.ofList after)))
        | (read', _, none) => go rest read'
  go input.sources []

/-- The number of bytes that a preview may have. -/
def previewLimit : Nat := 80

/-- As many characters as fit into a number of bytes. -/
def takeBytes : Nat → List Char → List Char
  | _, [] => []
  | limit, character :: rest =>
      if character.utf8Size ≤ limit then character :: takeBytes (limit - character.utf8Size) rest
      else []

/-- What is left of the current line, starting with the pending tokens. -/
def preview (input : Input) : String :=
  let rec go : List Source → String → String
    | [], shown => shown
    | .text reader :: _, shown => shown ++ reader.preview
    | .tokens pending :: rest, shown =>
        let shown' := shown ++ Token.displayList pending
        if shown'.utf8ByteSize > previewLimit then shown' else go rest shown'
  String.ofList (takeBytes previewLimit (go input.sources "").toList)

end Input

end TexTree
