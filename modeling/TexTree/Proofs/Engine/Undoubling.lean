import Mathlib.Tactic.FinCases
import TexTree.Proofs.Engine.Compiling

/-!
# Reading doubled definitions

Definitions inside of each other give back what was doubled once for each of them when they are
performed and called, and a definition that was doubled as a whole is read as without doubling.
`doublings_undone` states both.

A replacement text that is expanded while it is read may be changed before it is normalized.
The theorem asks of it that its expansion spares the parameter characters; `doublings_expanded`
shows that without it a command may take one half of a doubled character, or give two of them for
which one is read.
-/

namespace TexTree

namespace Engine

variable {engine start after : Engine} {scopes : Scopes} {tokens behind : List Token}
  {interpreter : Interpreter}

open Definition (isParameter hasDoubled normalize signatureOf bodyOf doubled Alike ParameterText)

/-! ## Definitions inside of definitions -/

/-- Definitions without parameters inside of each other, the first name outermost, and the
given tokens in the innermost one. -/
def nest (innermost : List Token) : List String → List Token
  | [] => innermost
  | name :: names =>
      .control "def" :: .control name :: .beginGroup ::
        (doubled (nest innermost names) ++ [.endGroup])

/-- Perform the definition of a name, and go on with what a call of it is replaced by. -/
def callDefined (interpreter : Interpreter) (name : String) : TexM Unit := do
  let token ← nextRawFor "def"
  perform interpreter token (.define "def" false false)
  if let some (.definition rule) ← command? name then
    Engine.pushTokens (← callDefinition rule (.control name))

theorem categories_setCommand (scopes : Scopes) (name : String) (command : Command)
    (isGlobal : Bool) :
    (scopes.setCommand name command isGlobal).categories = scopes.categories := by
  cases isGlobal with
  | true => exact scopes.categories_give_global name (.command command)
  | false =>
      simp only [Scopes.setCommand, Scopes.modifyTop, Scopes.categories, Scopes.top]
      cases scopes.inner <;> rfl

theorem command?_setCommand (scopes : Scopes) (name : String) (command : Command)
    (isGlobal : Bool) : (scopes.setCommand name command isGlobal).command? name = some command := by
  cases isGlobal with
  | true =>
      have given := scopes.command?_give_global name name (.command command)
      rwa [if_pos rfl] at given
  | false =>
      simp only [Scopes.setCommand, Scopes.modifyTop, Scopes.command?, Scopes.frames]
      cases scopes.inner <;> simp [Scopes.commandIn, Frame.bind]

theorem alias?_setCommand (scopes : Scopes) (name : String) (command : Command)
    (isGlobal : Bool) : (scopes.setCommand name command isGlobal).alias? name = none := by
  cases isGlobal with
  | true =>
      have given := scopes.alias?_give_global name name (.command command)
      rwa [if_pos rfl] at given
  | false =>
      simp only [Scopes.setCommand, Scopes.modifyTop, Scopes.alias?, Scopes.frames]
      cases scopes.inner <;>
        simp [Scopes.aliasIn, Frame.bind, Table.get?_erase, Table.contains]

theorem Faces.runs_readDefinedName {name command : String}
    (faces : Faces scopes (.control name :: tokens) engine) :
    Runs (readDefinedName command) engine fun result after =>
      name = result ∧ Faces scopes tokens after := by
  have unskipped : (engine.input.skipSpaces scopes.categories).ahead scopes.categories =
      (.control name :: tokens).map Token.bare := by
    rw [Input.ahead_skipSpaces, faces.ahead, List.map_cons, List.dropWhile_cons_of_neg]
    simp [Input.isSpace, Token.control, Token.bare, Token.at?]
  have skips : (fun table (input : Input) => ((), input.skipSpaces table)) scopes.categories
      engine.input = ((), engine.input.skipSpaces scopes.categories) := rfl
  refine (faces.runs_reading skips unskipped).bind ?_
  rintro _ between ⟨-, faces⟩
  refine faces.runs_nextRaw.bind ?_
  rintro _ after ⟨⟨token, rfl, same⟩, faces⟩
  have isControl : token.isControl = true := by
    rw [← Token.isControl_bare, same]
    rfl
  have isName : name = token.text := (congrArg Token.text same).symm
  simp only [isControl, if_true]
  exact runs_pure ⟨isName, faces⟩

/-- A definition without parameters is read and performed. -/
theorem Faces.runs_define {name : String} {body : List Token}
    (balanced : Input.braces 0 body = some 0)
    (faces : Faces scopes (.control name :: .beginGroup :: (body ++ .endGroup :: behind)) engine) :
    Runs (define interpreter "def" false false) engine fun _ after =>
      ∃ rule isGlobal, Compiles [] body rule ∧
        Faces (scopes.setCommand name (.definition rule) isGlobal) behind after := by
  have takes : Runs takeGlobal engine fun _ after => Faces scopes
      (.control name :: .beginGroup :: (body ++ .endGroup :: behind)) after :=
    runs_modifyGet ⟨faces.scopes_eq, faces.ahead⟩
  refine takes.bind ?_
  intro isGlobal between faces
  refine faces.runs_readDefinedName.bind ?_
  rintro _ between ⟨rfl, faces⟩
  have goesOn : GoesOn between ([] ++ .beginGroup :: (body ++ .endGroup :: behind)) between :=
    ⟨rfl, by rw [faces.scopes_eq]; exact faces.ahead⟩
  have reads : Runs (readDefinition interpreter name false) between fun rule after =>
      Compiles [] body rule ∧ Faces scopes behind after := by
    refine goesOn.runs_readDefinition (by simp) rfl rfl balanced rfl name ?_
    intro found written middle sameFound sameWritten goesOn
    refine (runs_compileDefinition sameFound sameWritten name middle).mono ?_
    rintro rule after ⟨compiles, sameScopes, sameInput⟩
    refine ⟨compiles, ?_, ?_⟩
    · rw [sameScopes, goesOn.unchanged]
      exact faces.scopes_eq
    · rw [sameInput, ← faces.scopes_eq, goesOn.ahead]
  refine reads.bind ?_
  rintro rule after ⟨compiles, faces⟩
  refine runs_modify ⟨rule, isGlobal, compiles, ?_, ?_⟩
  · rw [faces.scopes_eq, Bool.false_or]
  · rw [categories_setCommand]
    exact faces.ahead

/-- A call of a definition without parameters whose replacement text was doubled is
replaced by that text. -/
theorem Compiles.runs_callDefinition {rule : Definition}
    (compiles : Compiles [] (doubled tokens) rule) (token : Token)
    (faces : Faces scopes behind engine) :
    Runs (callDefinition rule token) engine fun result after =>
      result.map Token.bare = tokens.map Token.bare ∧ Faces scopes behind after := by
  have noSignature : rule.signature = [] := by
    simpa [normalFor, signatureOf, hasDoubled] using compiles.signature
  have isBody : rule.body.map DefinitionItem.bare =
      (tokens.map Token.bare).map DefinitionItem.token := by
    have undoubled : normalFor [] (doubled tokens) = doubled tokens := rfl
    rw [compiles.body, undoubled, Definition.bodyOf_doubled]
    simp [DefinitionItem.bare]
  have noArguments : ∀ table input,
      rule.readArguments table token.text input = (.ok [], input) := by
    intro table input
    rw [Definition.readArguments, compiles.origin, noSignature]
    simp [Definition.matchSignature]
  have reads : Runs (readCall rule token) engine fun arguments after =>
      arguments = [] ∧ Faces scopes behind after := by
    refine (faces.runs_reading (noArguments _ _) faces.ahead).bind ?_
    rintro _ after ⟨rfl, faces⟩
    exact runs_pure ⟨rfl, faces⟩
  refine reads.bind ?_
  rintro _ after ⟨rfl, faces⟩
  refine runs_pure ⟨?_, faces⟩
  rw [Definition.apply, Definition.map_bare_substitute, isBody, Definition.substitute_tokens]

/-- Performing a definition and calling it undoes one level of doubling. -/
theorem Faces.runs_callDefined {name : String} (balanced : Input.braces 0 tokens = some 0)
    (faces : Faces scopes (.control "def" :: .control name :: .beginGroup ::
      (doubled tokens ++ .endGroup :: behind)) engine) :
    Runs (callDefined interpreter name) engine fun _ after =>
      ∃ defined : Scopes, defined.categories = scopes.categories ∧
        Faces defined (tokens ++ behind) after := by
  have names : Runs (nextRawFor "def") engine fun _ after => Faces scopes (.control name ::
      .beginGroup :: (doubled tokens ++ .endGroup :: behind)) after := by
    refine faces.runs_nextRaw.bind ?_
    rintro _ after ⟨⟨token, rfl, -⟩, faces⟩
    exact runs_pure faces
  refine names.bind ?_
  intro token between faces
  refine (faces.runs_define (by rwa [braces_doubled])).bind ?_
  rintro ⟨⟩ between ⟨rule, isGlobal, compiles, faces⟩
  refine runs_get ?_
  simp only [faces.scopes_eq, command?_setCommand]
  refine (compiles.runs_callDefinition (.control name) faces).bind ?_
  rintro result after ⟨same, faces⟩
  have pushed := faces.pushTokens result
  refine runs_modify ⟨_, categories_setCommand _ _ _ _, pushed.scopes_eq, ?_⟩
  rw [pushed.ahead, List.map_append, same, List.map_append]

/-- The braces of definitions inside of each other match. -/
theorem braces_nest (balanced : Input.braces 0 tokens = some 0) (names : List String) :
    Input.braces 0 (nest tokens names) = some 0 := by
  induction names with
  | nil => exact balanced
  | cons name names ih =>
      have around : ∀ depth rest, Input.braces depth (.control "def" :: .control name ::
          .beginGroup :: rest) = Input.braces (depth + 1) rest := by
        intro depth rest
        rw [Input.braces_other (by decide) (by decide),
          Input.braces_other (by simp [Token.control]) (by simp [Token.control]),
          Input.braces_opening rfl]
      have inside : Input.braces 1 (doubled (nest tokens names)) = some 1 := by
        rw [braces_doubled]
        exact Input.braces_add ih 1
      rw [nest, around, Input.braces_append inside, Input.braces_closing rfl, Input.braces]

/-- Each definition is performed and called, and behind that the tokens of the innermost one
are ahead. -/
theorem Faces.runs_callAll (balanced : Input.braces 0 tokens = some 0) (names : List String)
    (faces : Faces scopes (nest tokens names ++ behind) engine) :
    Runs (names.forM (callDefined interpreter)) engine fun _ after =>
      ∃ defined : Scopes, defined.categories = scopes.categories ∧
        Faces defined (tokens ++ behind) after := by
  induction names generalizing scopes engine with
  | nil => exact runs_pure ⟨scopes, rfl, faces⟩
  | cons name names ih =>
      rw [nest, List.cons_append, List.cons_append, List.cons_append, List.append_assoc] at faces
      refine (faces.runs_callDefined (braces_nest balanced names)).bind ?_
      rintro _ between ⟨defined, sameCategories, faces⟩
      refine (ih faces).mono ?_
      rintro _ after ⟨more, stillSame, faces⟩
      exact ⟨more, stillSame.trans sameCategories, faces⟩

/-! ## Undoing the doubling -/

/-- A definition as it is written behind the name. -/
def written (parameters body : List Token) : List Token :=
  parameters ++ .beginGroup :: (body ++ [.endGroup])

/-- A definition as it is written is read, whether it is expanded or not. -/
theorem Yields.runs_readDefinition_written {parameters body result : List Token} {steps : Nat}
    {expanded : Bool} (yields : Yields interpreter engine body steps expanded result)
    (idles : Idles interpreter) (enough : steps < interpreter.limit)
    (noGroup : ∀ token ∈ parameters, token.category ≠ .beginGroup)
    (notTrailing : parameters.getLast?.any isParameter = false)
    (balanced : Input.braces 0 body = some 0) (name : String) :
    Runs (readDefinition interpreter name expanded) (engine.facing (written parameters body))
      fun rule _ => Compiles parameters result rule := by
  obtain ⟨behind, goesOn⟩ := goesOn_facing engine (written parameters body)
  rw [written, List.append_assoc, List.cons_append, List.append_assoc, List.singleton_append]
    at goesOn
  exact yields.runs_readDefinition idles enough noGroup notTrailing rfl balanced rfl name goesOn

/-- Doubled parameter characters are undone once per level.  A replacement text that was doubled
holds no parameter and is replaced by the tokens themselves, for any number of levels and also
where the engine performs and calls definitions inside of each other.  Where the parameter
characters are the same, normalizing undoes the doubling.  Complete expansion doubles what was
doubled if it spares the parameter characters, and so a definition that was doubled as a whole is
read like the one without doubling, if its replacement text is not expanded or if its expansion
spares the parameter characters. -/
theorem doublings_undone (fuel : Nat) (engine : Engine) :
    (∀ tokens, (∀ item ∈ (bodyOf (doubled tokens)).1, item.isToken = true) ∧
      ∀ arguments, Definition.substitute arguments (bodyOf (doubled tokens)).1 = tokens) ∧
    (∀ levels arguments tokens,
      (fun body => Definition.substitute arguments (bodyOf body).1)^[levels]
        (doubled^[levels] tokens) = tokens) ∧
    (∀ (names : List String) (tokens : List Token), Input.braces 0 tokens = some 0 →
      ∃ after : Engine, names.forM (callDefined (Engine.interpreter fuel))
          (engine.facing (nest tokens names)) = .ok () after ∧
        after.input.ahead engine.scopes.categories =
          tokens.map Token.bare ++ engine.input.ahead engine.scopes.categories) ∧
    (∀ tokens, SameParameters tokens →
      Token.sameList (normalize (doubled tokens)) tokens = true) ∧
    (∀ steps tokens result after,
      Expands (Engine.interpreter (fuel + 1)) steps engine tokens result after →
      2 * steps ≤ fuel →
      ∃ once afterOnce twice afterTwice,
        expandFully (Engine.interpreter (fuel + 1)) tokens engine = .ok once afterOnce ∧
        expandFully (Engine.interpreter (fuel + 1)) (doubled tokens) engine =
          .ok twice afterTwice ∧
        Token.sameList once result = true ∧ Token.sameList twice (doubled result) = true) ∧
    ∀ name expanded parameters body steps result, ParameterText parameters →
      Input.braces 0 body = some 0 → SameParameters body →
      Yields (Engine.interpreter (fuel + 1)) engine body steps expanded result →
      2 * steps ≤ fuel →
      ∃ once afterOnce twice afterTwice,
        readDefinition (Engine.interpreter (fuel + 1)) name expanded
          (engine.facing (written parameters body)) = .ok once afterOnce ∧
        readDefinition (Engine.interpreter (fuel + 1)) name expanded
          (engine.facing (written (doubled parameters) (doubled body))) = .ok twice afterTwice ∧
        DefinitionItem.sameList twice.signature once.signature = true ∧
        DefinitionItem.sameList twice.body once.body = true := by
  refine ⟨fun tokens => ⟨?_, fun arguments => ?_⟩, fun levels arguments tokens => ?_, ?calls,
    ?normal, ?expands, ?reads⟩
  · rw [Definition.bodyOf_doubled]
    simp [DefinitionItem.isToken, DefinitionItem.token?]
  · exact Definition.substitute_bodyOf_doubled arguments tokens
  · exact Definition.iterate_substitute_doubled arguments levels tokens
  case calls =>
    intro names tokens balanced
    obtain ⟨behind, isBehind, faces⟩ := faces_facing engine (nest tokens names)
    have calls : Runs (names.forM (callDefined (Engine.interpreter fuel))) _ _ :=
      faces.runs_callAll balanced names
    obtain ⟨⟨⟩, after, runs, defined, sameCategories, last⟩ := calls
    refine ⟨after, runs, ?_⟩
    rw [← sameCategories, last.ahead, List.map_append, isBehind, sameCategories]
  case normal =>
    intro tokens same
    rw [Token.sameList_eq_true_iff]
    exact Definition.map_bare_normalize_doubled (Definition.alike_of_forall same)
  case expands =>
    intro steps tokens result after expands enough
    obtain ⟨more, bound, expandsTwice⟩ := expands.doubled
    obtain ⟨behind, goesOn⟩ := goesOn_facing engine []
    have start : GoesOn engine behind engine := ⟨rfl, goesOn.ahead⟩
    obtain ⟨once, afterOnce, runsOnce, sameOnce⟩ :=
      expands.runs_expandFully (idles_interpreter fuel) (Nat.lt_succ_of_le (by omega)) start rfl
    obtain ⟨twice, afterTwice, runsTwice, sameTwice⟩ :=
      expandsTwice.runs_expandFully (idles_interpreter fuel)
        (Nat.lt_succ_of_le (bound.trans enough)) start rfl
    exact ⟨once, afterOnce, twice, afterTwice, runsOnce, runsTwice,
      Token.sameList_eq_true_iff.mpr sameOnce, Token.sameList_eq_true_iff.mpr sameTwice⟩
  case reads =>
    intro name expanded parameters body steps result isText balanced same yields enough
    obtain ⟨more, bound, yieldsTwice⟩ := yields.doubled
    obtain ⟨once, afterOnce, readsOnce, compilesOnce⟩ :=
      yields.runs_readDefinition_written (idles_interpreter fuel) (Nat.lt_succ_of_le (by omega))
        isText.noGroup isText.getLast? balanced name
    obtain ⟨twice, afterTwice, readsTwice, compilesTwice⟩ :=
      yieldsTwice.runs_readDefinition_written (idles_interpreter fuel)
        (Nat.lt_succ_of_le (bound.trans enough))
        (fun token member => isText.noGroup token (Definition.mem_doubled.mp member))
        (by rw [Definition.getLast?_doubled, isText.getLast?]) (by rwa [braces_doubled]) name
    have alike : Alike result := Definition.alike_of_forall (yields.sameParameters same)
    exact ⟨once, afterOnce, twice, afterTwice, readsOnce, readsTwice,
      compilesOnce.sameList isText alike compilesTwice⟩

/-- A parameter character with its digit is a parameter text. -/
theorem parameterText_pair {mark digit : Token} (isDoubled : isParameter mark = true)
    (noGroup : digit.category ≠ .beginGroup) (isDigit : Definition.IsDigit digit) :
    ParameterText [mark, digit] := by
  have isMark : mark.category = .parameter := by simpa [isParameter] using isDoubled
  refine ⟨by simp [isMark, noGroup], ?_, mark, by simp, isDoubled⟩
  intro before token behind isSplit isDoubled'
  cases before with
  | nil =>
      obtain ⟨rfl, rfl⟩ := List.cons.inj isSplit
      exact ⟨digit, rfl, isDigit⟩
  | cons first before =>
      obtain ⟨-, isRest⟩ := List.cons.inj isSplit
      cases before with
      | nil =>
          obtain ⟨rfl, rfl⟩ := List.cons.inj isRest
          exact absurd isDoubled' (by simp [isDigit.2])
      | cons second more => simp at isRest

/-- A definition without parameters. -/
def parameterless (name : String) (body : List Token) : Definition :=
  { name, origin := .parameterText, signature := [], fallback := none, body := body.map .token,
    isProtected := false }

/-- An engine in which a name means a definition. -/
def knowing (rule : Definition) : Engine :=
  let bare := fresh {} default ⟨2021, 3, 4⟩ .empty
  { bare with scopes := bare.scopes.setCommand rule.name (.definition rule) false }

theorem command?_knowing (rule : Definition) :
    (knowing rule).scopes.command? rule.name = some (.definition rule) :=
  command?_setCommand _ _ _ _

theorem alias?_knowing (rule : Definition) : (knowing rule).scopes.alias? rule.name = none :=
  alias?_setCommand _ _ _ _

/-- A replacement text that begins with a call of a definition without parameters yields the text of
that definition, and what is kept behind it. -/
theorem yields_parameterless {name : String} {body : List Token}
    (noAlias : engine.scopes.alias? name = none)
    (bound : engine.scopes.command? name = some (.definition (parameterless name body)))
    (few : engine.expansions < engine.settings.expansionLimit)
    (plain : ∀ token ∈ body, isParameter token = false)
    (ends : ∀ first ∈ tokens.head?, isParameter first = true)
    (kept : ∀ token ∈ body ++ tokens, Kept engine.scopes.Normal token) (fuel : Nat) :
    Yields (Engine.interpreter (fuel + 1)) engine (.control name :: tokens)
      ((body ++ tokens).length + 1) true (body ++ tokens) := by
  have calls : (parameterless name body).Calls [] [] := .parameterText [] [] rfl rfl
  have applied : (parameterless name body).apply [] = body := by
    rw [Definition.apply]
    exact Definition.substitute_tokens [] body
  have noneGiven : ∀ other ∈ (parameterless name body).apply [] ++ [],
      isParameter other = false := by
    rwa [applied, List.append_nil]
  have spares : Spares _ engine (.control name) ([] ++ []) _ _ :=
    spares_call rfl noAlias bound rfl calls few (by simp) noneGiven fuel
  rw [List.append_nil, applied, List.append_nil] at spares
  exact .expanded (.expand spares ends (.of_kept kept))

/-- A definition with a parameter is read with and without doubling, also if the command in its
replacement text is expanded, and two definitions inside of each other are performed and called. -/
theorem doublings_undone_two :
    let mark := Token.ofChar '#' .parameter
    let engine := knowing (parameterless "x" [.letter 'b'])
    let body := [.control "x", mark, .other '1']
    ParameterText [mark, .other '1'] ∧ Input.braces 0 body = some 0 ∧ SameParameters body ∧
      (∃ after : Engine, ["y", "z"].forM (callDefined (Engine.interpreter 8))
          (engine.facing (nest body ["y", "z"])) = .ok () after ∧
        after.input.ahead engine.scopes.categories =
          body.map Token.bare ++ engine.input.ahead engine.scopes.categories) ∧
      Yields (Engine.interpreter 9) engine body 4 true [.letter 'b', mark, .other '1'] ∧
      ∃ once afterOnce twice afterTwice,
        readDefinition (Engine.interpreter 9) "y" true
          (engine.facing (written [mark, .other '1'] body)) = .ok once afterOnce ∧
        readDefinition (Engine.interpreter 9) "y" true
          (engine.facing (written (doubled [mark, .other '1']) (doubled body))) =
            .ok twice afterTwice ∧
        DefinitionItem.sameList twice.signature once.signature = true ∧
        DefinitionItem.sameList twice.body once.body = true := by
  intro mark engine body
  have isText : ParameterText [mark, .other '1'] :=
    parameterText_pair rfl (by decide) ⟨by decide, by decide⟩
  have balanced : Input.braces 0 body = some 0 := by decide
  have same : SameParameters body := by
    unfold SameParameters
    decide
  have yields : Yields (Engine.interpreter 9) engine body 4 true
      [.letter 'b', mark, .other '1'] := by
    have bound : engine.scopes.command? "x" =
        some (.definition (parameterless "x" [.letter 'b'])) := command?_knowing _
    have noAlias : engine.scopes.alias? "x" = none := alias?_knowing _
    have few : engine.expansions < engine.settings.expansionLimit := Nat.zero_lt_succ 9999
    have kept : ∀ token ∈ [Token.letter 'b'] ++ [mark, .other '1'],
        Kept engine.scopes.Normal token := by
      intro token member
      fin_cases member <;>
        exact ⟨by decide, by decide, fun isControl => absurd isControl (by decide)⟩
    exact yields_parameterless noAlias bound few (by decide) (by decide) kept 8
  obtain ⟨-, -, calls, -, -, reads⟩ := doublings_undone 8 engine
  exact ⟨isText, balanced, same, calls ["y", "z"] body balanced, yields,
    reads "y" true _ body 4 _ isText balanced same yields (by decide)⟩

/-- The items of the replacement text that a definition was read with. -/
def replacement? : EStateM.Result TexError Engine Definition → Option (List DefinitionItem)
  | .ok rule _ => some (rule.body.map DefinitionItem.bare)
  | .error _ _ => none

/-- Where the replacement text is expanded while it is read, a command that takes an argument
finds a doubled parameter character, and takes only one half of it.  A command that gives two
parameter characters gives no more of them if the definition is doubled, and only one is left. -/
theorem doublings_expanded :
    let mark := Token.ofChar '#' .parameter
    let taking : Definition := { parameterless "x" [] with signature := [.parameter 1] }
    let giving := parameterless "x" [mark, mark]
    let read (rule : Definition) (parameters body : List Token) :=
      replacement? (readDefinition (Engine.interpreter 10) "y" true
        ((knowing rule).facing (written parameters body)))
    let parameters := [mark, .other '1']
    let body := [.control "x", mark, .other '1']
    let bodyToo := [.control "x", .other '1']
    (ParameterText parameters ∧ Input.braces 0 body = some 0 ∧ SameParameters body ∧
      read taking parameters body = some [.token (.other '1')] ∧
      read taking (doubled parameters) (doubled body) = some [.parameter 1]) ∧
    Input.braces 0 bodyToo = some 0 ∧ SameParameters bodyToo ∧
      read giving parameters bodyToo = some [.token mark, .token (.other '1')] ∧
      read giving (doubled parameters) (doubled bodyToo) = some [.parameter 1] := by
  unfold knowing
  rw [fresh, Builtin.scopes_eq]
  intro mark taking giving read parameters body bodyToo
  refine ⟨⟨parameterText_pair rfl (by decide) ⟨by decide, by decide⟩, by decide, ?_, ?_, ?_⟩,
    by decide, ?_, ?_, ?_⟩
  · unfold SameParameters
    decide
  · decide +kernel
  · decide +kernel
  · unfold SameParameters
    decide
  · decide +kernel
  · decide +kernel

end Engine

end TexTree
