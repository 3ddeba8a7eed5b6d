import TexTree.Engine.Expandable
import TexTree.Proofs.Engine.Running
import TexTree.Proofs.Input.Grouping

/-!
# Calling a definition

A call of a definition can be written for all arguments that the definition can take
(`Definition.Calls`), and reading it gives these arguments back and stops at its end
(`Engine.call_read`).

Behind a parameter with a delimiter, the argument stands as it is and the delimiter
follows.  It is found again if it does not occur earlier outside of groups
(`Input.Delimits`), and the argument keeps its braces if it is more than a single group.
All other arguments stand in braces, or in brackets if they are optional.
-/

namespace TexTree

namespace DefinitionItem

theorem filterMap_token (tokens : List Token) :
    (tokens.map DefinitionItem.token).filterMap token? = tokens := by
  rw [List.filterMap_map]
  exact List.filterMap_some

end DefinitionItem

namespace Definition

open Input

/-! ## Taking off braces -/

variable {token opening closing : Token} {tokens rest content : List Token} {depth : Nat}

theorem closesEarly_opening (opens : opening.category = .beginGroup) (more : rest ≠ []) :
    closesEarly depth (opening :: rest) = closesEarly (depth + 1) rest := by
  obtain ⟨next, rest, rfl⟩ := List.exists_cons_of_ne_nil more
  rw [closesEarly, opens]

theorem closesEarly_closing (closes : closing.category = .endGroup) (more : rest ≠ []) :
    closesEarly depth (closing :: rest) =
      (decide (depth ≤ 1) || closesEarly (depth - 1) rest) := by
  obtain ⟨next, rest, rfl⟩ := List.exists_cons_of_ne_nil more
  rw [closesEarly, closes]

theorem closesEarly_plain (noBrace : token.isBrace = false) (more : rest ≠ []) :
    closesEarly depth (token :: rest) = closesEarly depth rest := by
  obtain ⟨next, rest, rfl⟩ := List.exists_cons_of_ne_nil more
  obtain ⟨notOpening, notClosing⟩ := Token.category_of_not_isBrace noBrace
  rw [closesEarly]
  split <;> simp_all

/-- A brace that is open before tokens in which the braces match is still open behind
them. -/
theorem closesEarly_grouped (grouped : Grouped tokens) (isOpen : 0 < depth) (more : rest ≠ []) :
    closesEarly depth (tokens ++ rest) = closesEarly depth rest := by
  induction grouped generalizing depth rest with
  | nil => rfl
  | plain noBrace _ ih =>
      rw [List.cons_append, closesEarly_plain noBrace (List.append_ne_nil_of_right_ne_nil _ more),
        ih isOpen more]
  | group opens _ closes _ insideIh followingIh =>
      rw [List.cons_append, List.append_assoc, List.cons_append,
        closesEarly_opening opens (by simp), insideIh (Nat.succ_pos depth) (by simp),
        closesEarly_closing (category_of_closes closes) (List.append_ne_nil_of_right_ne_nil _ more),
        Nat.succ_sub_one, followingIh isOpen more]
      simp [Nat.ne_of_gt isOpen]

/-- A group and nothing else. -/
def IsGroup (tokens : List Token) : Prop :=
  ∃ opening content closing, tokens = opening :: (content ++ [closing]) ∧
    opening.category = .beginGroup ∧ Grouped content ∧ closing.bare = .endGroup

/-- Braces are taken off from a single group only. -/
theorem stripBraces_of_not_isGroup (grouped : Grouped tokens) (notGroup : ¬ IsGroup tokens) :
    stripBraces tokens = tokens := by
  cases grouped with
  | nil => rfl
  | @plain token rest noBrace following =>
      have notOpening := (Token.category_of_not_isBrace noBrace).1
      unfold stripBraces
      split
      · next first _ isFirst _ =>
          rw [List.head?_cons, Option.some.injEq] at isFirst
          rw [← isFirst]
          simp [notOpening]
      · rfl
  | @group opening closing content rest opens inside closes following =>
      have more : rest ≠ [] := by
        rintro rfl
        exact notGroup ⟨opening, content, closing, rfl, opens, inside, closes⟩
      have early : closesEarly 0 (opening :: (content ++ closing :: rest)) = true := by
        rw [closesEarly_opening opens (by simp), closesEarly_grouped inside Nat.one_pos (by simp),
          closesEarly_closing (category_of_closes closes) more]
        rfl
      unfold stripBraces
      simp only [early, Bool.not_true, Bool.and_false, Bool.false_eq_true, if_false]
      split <;> rfl

theorem closesEarly_bare (depth : Nat) (tokens : List Token) :
    closesEarly depth (tokens.map Token.bare) = closesEarly depth tokens := by
  fun_induction closesEarly depth tokens with
  | case1 depth token next rest opens ih =>
      rw [List.map_cons, closesEarly_opening (token.category_bare.trans opens) (by simp), ih]
  | case2 depth token next rest closes ih =>
      rw [List.map_cons, closesEarly_closing (token.category_bare.trans closes) (by simp), ih]
  | case3 depth token next rest notOpening notClosing ih =>
      rw [List.map_cons, closesEarly_plain (by simpa [Token.isBrace] using ⟨notOpening, notClosing⟩)
        (by simp), ih]
  | case4 tokens depth short =>
      rcases tokens with _ | ⟨token, _ | ⟨next, rest⟩⟩
      · rfl
      · rfl
      · exact absurd rfl (short token next rest)

theorem stripBraces_bare (tokens : List Token) :
    stripBraces (tokens.map Token.bare) = (stripBraces tokens).map Token.bare := by
  unfold stripBraces
  rw [closesEarly_bare, List.head?_map, List.getLast?_map]
  cases tokens.head? <;> cases tokens.getLast? <;> try rfl
  dsimp only [Option.map_some, Token.category_bare]
  rw [apply_ite (List.map Token.bare), List.map_dropLast, List.map_drop]
  rfl

/-! ## Calls -/

/-- An argument in braces. -/
def braced (argument : List Token) : List Token :=
  Token.beginGroup :: (argument ++ [Token.endGroup])

/-- An argument in brackets. -/
def inBrackets (argument : List Token) : List Token :=
  Token.other '[' :: (argument ++ [Token.other ']'])

/-- A parameter of a parameter text with the delimiter behind it, and an argument that can
be passed to it. -/
structure Passed where
  number : Nat
  delimiter : List Token
  argument : List Token
  noBraces : ∀ token ∈ delimiter, token.isBrace = false
  grouped : Grouped argument
  fits : delimiter ≠ [] → Delimits delimiter argument ∧ ¬ IsGroup argument

namespace Passed

/-- The part of the parameter text. -/
def items (passed : Passed) : List DefinitionItem :=
  .parameter passed.number :: passed.delimiter.map .token

/-- The part of the call. -/
def written (passed : Passed) : List Token :=
  if passed.delimiter = [] then braced passed.argument
  else passed.argument ++ passed.delimiter

end Passed

/-- The tokens behind the name of a command call its definition with these arguments. -/
inductive Calls (definition : Definition) : List Token → List (List Token) → Prop where
  | parameterText (start : List Token) (passed : List Passed)
      (origin : definition.origin = .parameterText)
      (signature : definition.signature = start.map .token ++ passed.flatMap Passed.items) :
      Calls definition (start ++ passed.flatMap Passed.written) (passed.map Passed.argument)
  | plain (arguments : List (List Token)) (origin : definition.origin = .newCommand)
      (required : definition.fallback = none) (arity : definition.arity = arguments.length)
      (grouped : ∀ argument ∈ arguments, Grouped argument) :
      Calls definition (arguments.flatMap braced) arguments
  | optional (first : List Token) (others : List (List Token)) (fallback : List Token)
      (origin : definition.origin = .newCommand) (hasFallback : definition.fallback = some fallback)
      (arity : definition.arity = others.length + 1) (bracketed : Bracketed '[' ']' first)
      (grouped : ∀ argument ∈ others, Grouped argument) :
      Calls definition (inBrackets first ++ others.flatMap braced) (first :: others)
  | fallback (fallback : List Token) (others : List (List Token))
      (origin : definition.origin = .newCommand) (hasFallback : definition.fallback = some fallback)
      (arity : definition.arity = others.length + 1) (further : others ≠ [])
      (grouped : ∀ argument ∈ others, Grouped argument) :
      Calls definition (others.flatMap braced) (fallback :: others)

/-! ## Reading calls -/

section Reading

variable {table : CategoryTable} {command : String} {input : Input} {argument behind : List Token}

theorem requiredArgument_braced (command : String) (grouped : Grouped argument)
    (left : input.ahead table = (braced argument).map Token.bare ++ behind) :
    ∃ found rest, input.requiredArgument table command = (.ok found, rest) ∧
      found.map Token.bare = argument.map Token.bare ∧ rest.ahead table = behind := by
  have inBraces : input.ahead table = Token.beginGroup ::
      (argument.map Token.bare ++ Token.endGroup :: behind) := by
    rw [left, braced, List.map_cons, List.map_append, List.cons_append, List.append_assoc]
    rfl
  have balanced : braces 0 (argument.map Token.bare) = some 0 := by
    rw [braces_bare, grouped.braces]
  obtain ⟨found, rest, read, same, following⟩ := argument_of_ahead inBraces rfl rfl balanced
  exact ⟨found, rest, by rw [requiredArgument, read], same, following⟩

/-- Arguments in braces are read one after the other. -/
theorem plainArguments_braced (command : String) {arguments : List (List Token)}
    (grouped : ∀ argument ∈ arguments, Grouped argument)
    (left : input.ahead table = (arguments.flatMap braced).map Token.bare ++ behind) :
    ∃ found rest, plainArguments table command arguments.length input = (.ok found, rest) ∧
      found.map (List.map Token.bare) = arguments.map (List.map Token.bare) ∧
      rest.ahead table = behind := by
  induction arguments generalizing input with
  | nil => exact ⟨[], input, rfl, rfl, left⟩
  | cons first others ih =>
      rw [List.forall_mem_cons] at grouped
      rw [List.flatMap_cons, List.map_append, List.append_assoc] at left
      obtain ⟨tokens, middle, read, same, following⟩ :=
        requiredArgument_braced command grouped.1 left
      obtain ⟨found, rest, readOthers, sameOthers, last⟩ := ih grouped.2 following
      refine ⟨tokens :: found, rest, ?_, ?_, last⟩
      · rw [List.length_cons, plainArguments, read]
        simp [readOthers, Except.map]
      · rw [List.map_cons, same, sameOthers, List.map_cons]

/-- The tokens before the first parameter are passed over. -/
theorem matchSignature_tokens (tokens : List Token) {items : List DefinitionItem}
    (left : input.ahead table = tokens.map Token.bare ++ behind) :
    ∃ rest, matchSignature table command (tokens.map .token ++ items) input =
        matchSignature table command items rest ∧ rest.ahead table = behind := by
  induction tokens generalizing input with
  | nil => exact ⟨input, rfl, left⟩
  | cons token tokens ih =>
      obtain ⟨next, middle, found, same, following⟩ := next_of_ahead left
      obtain ⟨rest, goesOn, last⟩ := ih following
      refine ⟨rest, ?_, last⟩
      rw [List.map_cons, List.cons_append, matchSignature, found]
      simp only [Token.same_eq_true_iff.mpr same, if_true, goesOn]

/-- The delimiter behind a parameter ends where the next parameter stands. -/
theorem takeWhile_items (delimiter : List Token) (passed : List Passed) :
    (delimiter.map DefinitionItem.token ++ passed.flatMap Passed.items).takeWhile
        DefinitionItem.isToken = delimiter.map .token ∧
      (delimiter.map DefinitionItem.token ++ passed.flatMap Passed.items).dropWhile
        DefinitionItem.isToken = passed.flatMap Passed.items := by
  have areTokens : ∀ item ∈ delimiter.map DefinitionItem.token, item.isToken = true := by
    intro item member
    obtain ⟨token, -, rfl⟩ := List.mem_map.mp member
    rfl
  rw [List.takeWhile_append_of_pos areTokens, List.dropWhile_append_of_pos areTokens]
  cases passed with
  | nil => simp
  | cons first others => 
      simp [Passed.items, DefinitionItem.isToken, DefinitionItem.token?]

/-- An argument of a parameter text is read together with its delimiter. -/
theorem Passed.read (command : String) (passed : Passed)
    (left : input.ahead table = passed.written.map Token.bare ++ behind) :
    ∃ found rest, (if passed.delimiter.isEmpty then input.requiredArgument table command
        else
          let (tokens, rest) := input.delimited table command passed.delimiter.reverse []
          (tokens.map stripBraces, rest)) = (.ok found, rest) ∧
      found.map Token.bare = passed.argument.map Token.bare ∧ rest.ahead table = behind := by
  unfold Passed.written at left
  by_cases undelimited : passed.delimiter = []
  · rw [if_pos undelimited] at left
    obtain ⟨found, rest, read, same, following⟩ :=
      requiredArgument_braced command passed.grouped left
    exact ⟨found, rest, by rw [undelimited, ← read]; rfl, same, following⟩
  · rw [if_neg undelimited] at left
    obtain ⟨delimits, notGroup⟩ := passed.fits undelimited
    have grouped : Grouped (passed.argument ++ passed.delimiter) :=
      passed.grouped.append (Grouped.ofPlain passed.noBraces)
    have nothing : ([] : List Token).reverse.map Token.bare = ([] : List Token).map Token.bare :=
      rfl
    obtain ⟨found, rest, read, same, following⟩ :=
      delimited_of_grouped passed.noBraces undelimited delimits grouped (by simp [undelimited])
        rfl nothing rfl left
    refine ⟨stripBraces found, rest, ?_, ?_, following⟩
    · rw [if_neg (by simpa using undelimited), read]
      rfl
    · rw [← stripBraces_bare, same, stripBraces_bare,
        stripBraces_of_not_isGroup passed.grouped notGroup]

theorem matchSignature_passed {passed : List Passed}
    (left : input.ahead table = (passed.flatMap Passed.written).map Token.bare ++ behind) :
    ∃ found rest, matchSignature table command (passed.flatMap Passed.items) input =
        (.ok found, rest) ∧
      found.map (List.map Token.bare) =
        (passed.map Passed.argument).map (List.map Token.bare) ∧
      rest.ahead table = behind := by
  induction passed generalizing input with
  | nil => exact ⟨[], input, by rw [List.flatMap_nil, matchSignature], rfl, left⟩
  | cons first others ih =>
      rw [List.flatMap_cons, List.map_append, List.append_assoc] at left
      obtain ⟨tokens, middle, read, same, following⟩ := first.read command left
      obtain ⟨found, rest, readOthers, sameOthers, last⟩ := ih following
      obtain ⟨delimiter, behindDelimiter⟩ := takeWhile_items first.delimiter others
      refine ⟨tokens :: found, rest, ?_, ?_, last⟩
      · rw [List.flatMap_cons, Passed.items, List.cons_append, matchSignature]
        simp only [delimiter, behindDelimiter, DefinitionItem.filterMap_token] at read ⊢
        simp only [read, readOthers]
        rfl
      · rw [List.map_cons, same, sameOthers, List.map_cons, List.map_cons]

/-- The arguments of a call are read, and nothing behind it. -/
theorem Calls.readArguments (command : String) {definition : Definition} {call : List Token}
    {arguments : List (List Token)} (calls : Calls definition call arguments)
    (left : input.ahead table = call.map Token.bare ++ behind) :
    ∃ found rest, definition.readArguments table command input = (.ok found, rest) ∧
      found.map (List.map Token.bare) = arguments.map (List.map Token.bare) ∧
      rest.ahead table = behind := by
  cases calls with
  | parameterText start passed origin signature =>
      rw [List.map_append, List.append_assoc] at left
      obtain ⟨middle, goesOn, following⟩ := matchSignature_tokens start left
      obtain ⟨found, rest, read, same, last⟩ := matchSignature_passed following
      refine ⟨found, rest, ?_, same, last⟩
      rw [Definition.readArguments, origin, signature]
      exact goesOn.trans read
  | plain _ origin required arity grouped =>
      obtain ⟨found, rest, read, same, last⟩ := plainArguments_braced command grouped left
      refine ⟨found, rest, ?_, same, last⟩
      rw [Definition.readArguments, origin, required, arity]
      exact read
  | optional first others fallback origin hasFallback arity bracketed grouped =>
      have inBrackets : input.ahead table = (Token.other '[').bare ::
          (first.map Token.bare ++ (Token.other ']').bare ::
            ((others.flatMap braced).map Token.bare ++ behind)) := by
        rw [left, Definition.inBrackets]
        simp
      obtain ⟨optional, middle, readOptional, sameOptional, following⟩ :=
        bracketed.bracketed (by decide) (by decide) (by decide) (by decide) (by decide) inBrackets
      obtain ⟨found, rest, read, same, last⟩ := plainArguments_braced command grouped following
      refine ⟨optional :: found, rest, ?_, ?_, last⟩
      · rw [Definition.readArguments, origin, hasFallback, arity]
        simp [readOptional, read, Except.map]
      · rw [List.map_cons, sameOptional, same, List.map_cons]
  | fallback fallback others origin hasFallback arity further grouped =>
      obtain ⟨first, more, rfl⟩ := List.exists_cons_of_ne_nil further
      have inBraces : (input.ahead table).dropWhile isSpace =
          ((first :: more).flatMap braced).map Token.bare ++ behind := by
        rw [left]
        rfl
      have absent : Token.beginGroup.bare.isChar '[' = false := by decide
      obtain ⟨middle, readOptional, following⟩ :
          ∃ rest, bracketed table '[' ']' input = (.ok none, rest) ∧ rest.ahead table =
            ((first :: more).flatMap braced).map Token.bare ++ behind :=
        bracketed_of_ahead inBraces absent
      obtain ⟨found, rest, read, same, last⟩ := plainArguments_braced command grouped following
      refine ⟨fallback :: found, rest, ?_, ?_, last⟩
      · rw [Definition.readArguments, origin, hasFallback, arity]
        simp only [readOptional, read]
        rfl
      · rw [List.map_cons, same]
        rfl

end Reading

end Definition

namespace Engine

variable {engine : Engine} {rule : Definition} {call : List Token}
  {arguments : List (List Token)}

/-- A call that is written for some arguments is read as one with these arguments, up to its
end. -/
theorem call_read (calls : rule.Calls call arguments) (behind : List Token)
    (left : engine.input.ahead engine.scopes.categories = (call ++ behind).map Token.bare)
    (token : Token) :
    Runs (readCall rule token) engine fun found after =>
      found.map (List.map Token.bare) = arguments.map (List.map Token.bare) ∧
      GoesOn engine behind after := by
  rw [List.map_append] at left
  obtain ⟨found, rest, read, same, following⟩ := calls.readArguments token.text left
  refine (runs_reading read following).bind ?_
  rintro result after ⟨rfl, goesOn⟩
  exact runs_pure ⟨same, goesOn⟩

/-- Two parameters, the first one with a delimiter that starts like itself: the argument
`a{aab}a` ends with what the delimiter `aab` starts with, and has it in a group. -/
def delimitedPassed : Definition.Passed where
  number := 1
  delimiter := [.letter 'a', .letter 'a', .letter 'b']
  argument := [.letter 'a', .beginGroup, .letter 'a', .letter 'a', .letter 'b', .endGroup,
    .letter 'a']
  noBraces := by decide +kernel
  grouped := by
    have inside : Input.Grouped [.letter 'a', .letter 'a', .letter 'b'] :=
      .ofPlain (by decide +kernel)
    exact .plain rfl (.group rfl inside rfl (.ofPlain (by decide +kernel)))
  fits := by
    refine fun _ => ⟨Input.delimits_of_forall (by decide +kernel), ?_⟩
    rintro ⟨opening, content, closing, equal, opens, -, -⟩
    rw [← (List.cons.inj equal).1] at opens
    cases opens

/-- An argument in braces. -/
def bracedPassed : Definition.Passed where
  number := 2
  delimiter := []
  argument := [.space, .letter 'y']
  noBraces := by simp
  grouped := .ofPlain (by decide +kernel)
  fits := fun nonempty => absurd rfl nonempty

/-- A definition with these parameters. -/
def delimitedRule : Definition where
  name := "pair"
  origin := .parameterText
  signature :=
    .token (.other ':') :: [delimitedPassed, bracedPassed].flatMap Definition.Passed.items
  fallback := none
  body := [.parameter 2, .parameter 1]
  isProtected := false

/-- The call `:a{aab}aaab{ y}`. -/
def delimitedCall : List Token :=
  .other ':' :: [delimitedPassed, bracedPassed].flatMap Definition.Passed.written

/-- An engine in front of the call and another token. -/
def callingEngine : Engine :=
  { (default : Engine) with
    scopes := .initial
    input := Input.empty.pushTokens (delimitedCall ++ [Token.letter 'x']) }

theorem call_read_delimited :
    delimitedRule.Calls delimitedCall [delimitedPassed.argument, bracedPassed.argument] ∧
    callingEngine.input.ahead callingEngine.scopes.categories =
      (delimitedCall ++ [Token.letter 'x']).map Token.bare ∧
    Runs (readCall delimitedRule (.control "pair")) callingEngine fun found after =>
      found.map (List.map Token.bare) =
        [delimitedPassed.argument, bracedPassed.argument].map (List.map Token.bare) ∧
      GoesOn callingEngine [.letter 'x'] after := by
  have calls : delimitedRule.Calls delimitedCall
      [delimitedPassed.argument, bracedPassed.argument] :=
    .parameterText [.other ':'] [delimitedPassed, bracedPassed] rfl rfl
  have left : callingEngine.input.ahead callingEngine.scopes.categories =
      (delimitedCall ++ [Token.letter 'x']).map Token.bare := by
    rw [callingEngine, Input.ahead_pushTokens, Input.ahead_empty, List.append_nil]
  exact ⟨calls, left, call_read calls [.letter 'x'] left (.control "pair")⟩

end Engine

end TexTree
