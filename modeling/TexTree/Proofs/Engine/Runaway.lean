import TexTree.Proofs.Engine.Beginning
import TexTree.Proofs.Engine.Items
import TexTree.Proofs.Engine.Sealed

/-!
# Expansions in a row

While the next item is looked for, tokens are read, and those that give no item are
replaced or executed (`rounds`).  A definition that is called in such a round is counted,
and when the count has reached its limit, the call fails and nothing is replaced.  So as
long as the count is not cleared in between, no more definitions are called than the limit
allows (`definitions_limited`).

The count guards definitions only.  An environment that is called by its name is replaced
by the code that it begins with, which leaves the count as it is: an environment whose
code begins with its own name is replaced over and over (`environment_unguarded`).
-/

namespace TexTree.Engine

/-- A token that was read while the next item was looked for and that gave none, with
the engine behind the token and the one behind its execution. -/
structure Round where
  token : Token
  before : Engine
  after : Engine

/-- The definition that a token calls. -/
def calledDefinition? (token : Token) (engine : Engine) : Option Definition :=
  match token.commandName?.bind engine.scopes.command? with
  | some (.definition rule) => some rule
  | _ => none

namespace Round

/-- Whether a definition is called in the round. -/
def callsDefinition (round : Round) : Bool :=
  (calledDefinition? round.token round.before).isSome

/-- The count of expansions does not become smaller in the round. -/
def KeepsCount (round : Round) : Prop := round.before.expansions ≤ round.after.expansions

instance (round : Round) : Decidable round.KeepsCount :=
  inferInstanceAs (Decidable (round.before.expansions ≤ round.after.expansions))

end Round

/-- The rounds of looking for the next item in at most so many steps. -/
def rounds (interpreter : Interpreter) : Nat → Engine → List Round
  | 0, _ => []
  | steps + 1, engine =>
      match engine.buffer with
      | _ :: _ => []
      | [] =>
          match nextToken engine with
          | .ok (some token) before =>
              match tokenItem interpreter token before with
              | .ok none after => ⟨token, before, after⟩ :: rounds interpreter steps after
              | _ => []
          | _ => []

variable {interpreter : Interpreter} {engine before after : Engine} {token : Token}
  {rule : Definition}

/-- What is known about a first round. -/
theorem rounds_eq_cons {steps : Nat} {round : Round} {later : List Round}
    (isFirst : rounds interpreter steps engine = round :: later) :
    ∃ fewer, steps = fewer + 1 ∧ engine.buffer = [] ∧
      nextToken engine = .ok (some round.token) round.before ∧
      tokenItem interpreter round.token round.before = .ok none round.after ∧
      rounds interpreter fewer round.after = later := by
  unfold rounds at isFirst
  split at isFirst
  · cases isFirst
  · next fewer =>
      split at isFirst
      · cases isFirst
      · next noBuffer =>
          split at isFirst
          · next token before wasRead =>
              split at isFirst
              · next after gaveNone =>
                  cases isFirst
                  exact ⟨fewer, rfl, noBuffer, wasRead, gaveNone, rfl⟩
              · cases isFirst
          · cases isFirst

/-! ## The guard -/

/-- A token that calls a definition is invoked with it. -/
theorem tokenItem_definition (calls : calledDefinition? token engine = some rule) :
    tokenItem interpreter token engine = itemOf interpreter token (.definition rule) engine := by
  unfold calledDefinition? at calls
  split at calls
  · next found =>
      cases calls
      obtain ⟨name, isName, isCommand⟩ := Option.bind_eq_some_iff.mp found
      exact tokenItem_command isName isCommand
  · cases calls

/-- At the limit a definition is not called any more. -/
theorem expand_definition_runaway (fuel : Nat) (token : Token) (rule : Definition)
    (limit : engine.settings.expansionLimit ≤ engine.expansions) :
    (Engine.interpreter (fuel + 1)).run (.expand token (.definition rule)) engine =
      .error { fault := .runaway token engine.settings.expansionLimit }
        { engine with expansions := engine.expansions + 1 } := by
  change expandCommand (Engine.interpreter fuel) token (.definition rule) engine = _
  have beyond : engine.settings.expansionLimit < engine.expansions + 1 := by omega
  simp [expandCommand, Command.isExpandable, countExpansion, bind, EStateM.bind, modify,
    modifyGet_run, get_run, beyond, fail, throw_run]

/-- A call that is counted has not reached the limit before. -/
theorem results_counted (token : Token) :
    Results (countExpansion token) engine fun _ after =>
      after = { engine with expansions := engine.expansions + 1 } ∧
        engine.expansions < engine.settings.expansionLimit := by
  have counted : Results (modify fun engine : Engine =>
      { engine with expansions := engine.expansions + 1 }) engine
      fun _ after => after = { engine with expansions := engine.expansions + 1 } :=
    results_modify rfl
  refine counted.bind ?_
  rintro _ _ rfl
  refine results_get.bind ?_
  rintro _ _ ⟨rfl, rfl⟩
  split
  · exact results_fail
  · next within => exact results_pure ⟨rfl, by dsimp only at within; omega⟩

/-- A definition has been called by a token: the limit was not reached before, the call is
counted, and its replacement is read next. -/
structure Calls (rule : Definition) (token : Token) (before after : Engine) : Prop where
  within : before.expansions < before.settings.expansionLimit
  counted : after.expansions = before.expansions + 1
  replaced : ∃ arguments rest,
    rule.readArguments before.scopes.categories token.text before.input = (.ok arguments, rest) ∧
      after.input = rest.pushTokens (rule.apply arguments)

theorem results_expand_definition (fuel : Nat) (token : Token) (rule : Definition) :
    Results ((Engine.interpreter fuel).run (.expand token (.definition rule))) engine
      fun expanded after => expanded = true ∧ Calls rule token engine after := by
  cases fuel with
  | zero => exact results_fail
  | succ fuel =>
      change Results (expandCommand (Engine.interpreter fuel) token (.definition rule)) engine _
      refine (results_counted token).bind ?_
      rintro _ _ ⟨rfl, within⟩
      let counted : Engine := { engine with expansions := engine.expansions + 1 }
      have reads : Results (readCall rule token) counted fun arguments after =>
          after = { counted with input := after.input } ∧
            rule.readArguments engine.scopes.categories token.text engine.input =
              (.ok arguments, after.input) :=
        results_readingOrFail fun arguments rest isRead => ⟨rfl, isRead⟩
      have pushes : Results (do pushTokens (rule.apply (← readCall rule token)); return true)
          counted fun expanded after => expanded = true ∧ Calls rule token engine after := by
        refine reads.bind ?_
        rintro arguments after ⟨same, isRead⟩
        have pushes : Results (pushTokens (rule.apply arguments)) after fun _ last =>
            last = { after with input := after.input.pushTokens (rule.apply arguments) } :=
          results_modify rfl
        refine pushes.bind ?_
        rintro _ _ rfl
        refine results_pure ⟨rfl, within, ?_, arguments, after.input, isRead, rfl⟩
        rw [same]
      simpa [callDefinition, bind_assoc] using pushes

/-- Invoking a token that calls a definition gives no item. -/
theorem results_itemOf_definition (fuel : Nat) (token : Token) (rule : Definition) :
    Results (itemOf (Engine.interpreter fuel) token (.definition rule)) engine
      fun _ after => Calls rule token engine after := by
  have invokes : Results (invoke (Engine.interpreter fuel) token (.definition rule)) engine
      fun item after => item = none ∧ Calls rule token engine after := by
    refine (results_expand_definition fuel token rule).bind ?_
    rintro _ after ⟨rfl, calls⟩
    exact results_pure ⟨rfl, calls⟩
  refine invokes.bind ?_
  rintro _ after ⟨rfl, calls⟩
  exact results_pure calls

/-- At the limit, looking for the next item ends where a definition would be called. -/
theorem nextItemWithin_runaway (fuel steps : Nat) (noBuffer : engine.buffer = [])
    (wasRead : nextToken engine = .ok (some token) before)
    (calls : calledDefinition? token before = some rule)
    (limit : before.settings.expansionLimit ≤ before.expansions) :
    nextItemWithin (Engine.interpreter (fuel + 1)) (steps + 1) engine =
      .error { fault := .runaway token before.settings.expansionLimit }
        { before with expansions := before.expansions + 1 } := by
  have fails : tokenItem (Engine.interpreter (fuel + 1)) token before =
      .error { fault := .runaway token before.settings.expansionLimit }
        { before with expansions := before.expansions + 1 } := by
    rw [tokenItem_definition calls]
    simp only [itemOf, invoke, bind, EStateM.bind, expand_definition_runaway fuel token rule limit]
  rw [nextItemWithin]
  simp only [bind, EStateM.bind, get_run, noBuffer, wasRead, fails]

/-! ## The rounds of a call -/

/-- Reading a token changes nothing but the input. -/
theorem results_nextToken_input :
    Results nextToken engine fun _ after => after = { engine with input := after.input } := by
  have reads : Results nextRaw engine fun _ after => after = { engine with input := after.input } :=
    results_modifyGet rfl
  refine reads.bind ?_
  intro found after same
  cases found with
  | none => exact results_pure same
  | some token =>
      dsimp only
      split
      · refine results_get.bind ?_
        rintro _ _ ⟨rfl, rfl⟩
        split <;> exact results_pure same
      · exact results_pure same

/-- What has been found out about a first round. -/
theorem count_of_first {fuel steps : Nat} {round : Round} {later : List Round}
    (isFirst : rounds (Engine.interpreter fuel) steps engine = round :: later) :
    round.before.expansions = engine.expansions ∧
      (round.callsDefinition = true →
        round.before.expansions < round.before.settings.expansionLimit ∧
          round.after.expansions = round.before.expansions + 1) := by
  obtain ⟨fewer, rfl, noBuffer, wasRead, gaveNone, rest⟩ := rounds_eq_cons isFirst
  refine ⟨?_, fun isCalling => ?_⟩
  · rw [results_nextToken_input _ _ wasRead]
  · obtain ⟨rule, calls⟩ := Option.isSome_iff_exists.mp isCalling
    rw [tokenItem_definition calls] at gaveNone
    have called := results_itemOf_definition fuel round.token rule _ _ gaveNone
    exact ⟨called.within, called.counted⟩

/-- Behind some rounds, the others are the rounds of the rest of the call. -/
theorem exists_rounds_behind {steps : Nat} {earlier later : List Round}
    (split : rounds interpreter steps engine = earlier ++ later) :
    ∃ fewer start, rounds interpreter fewer start = later := by
  induction earlier generalizing steps engine with
  | nil => exact ⟨steps, engine, split⟩
  | cons first earlier ih =>
      obtain ⟨fewer, _, _, _, _, rest⟩ := rounds_eq_cons split
      exact ih rest

/-- As long as the count is kept, it is at least the number of definitions that have been
called. -/
theorem countP_le_expansions {fuel steps : Nat} {stretch later : List Round} {round : Round}
    (split : rounds (Engine.interpreter fuel) steps engine = stretch ++ round :: later)
    (keeps : ∀ other ∈ stretch, other.KeepsCount) :
    engine.expansions + stretch.countP Round.callsDefinition ≤ round.before.expansions := by
  induction stretch generalizing steps engine with
  | nil => exact Nat.le_of_eq (count_of_first split).1.symm
  | cons first stretch ih =>
      obtain ⟨start, calling⟩ := count_of_first split
      obtain ⟨fewer, _, _, _, _, rest⟩ := rounds_eq_cons split
      have later := ih rest fun other member => keeps other (List.mem_cons_of_mem first member)
      have kept : first.before.expansions ≤ first.after.expansions :=
        keeps first List.mem_cons_self
      rw [List.countP_cons]
      cases isCalling : first.callsDefinition with
      | false =>
          simp only [Bool.false_eq_true, if_false]
          omega
      | true =>
          have counted := (calling isCalling).2
          simp only [if_true]
          omega

/-- While the next item is looked for, the definitions that are called without clearing the
count in between are at most as many as the limit allows; and one that would be called when
the count has reached the limit ends the call with a fault. -/
theorem definitions_limited (fuel steps : Nat) (engine : Engine) :
    (∀ earlier stretch round later,
      rounds (Engine.interpreter fuel) steps engine = earlier ++ stretch ++ round :: later →
      (∀ other ∈ stretch, other.KeepsCount) → round.callsDefinition = true →
      stretch.countP Round.callsDefinition + 1 ≤ round.before.settings.expansionLimit) ∧
    ∀ token before rule, engine.buffer = [] → nextToken engine = .ok (some token) before →
      calledDefinition? token before = some rule →
      before.settings.expansionLimit ≤ before.expansions →
      nextItemWithin (Engine.interpreter (fuel + 1)) (steps + 1) engine =
        .error { fault := .runaway token before.settings.expansionLimit }
          { before with expansions := before.expansions + 1 } := by
  refine ⟨?_, fun token before rule => nextItemWithin_runaway fuel steps⟩
  intro earlier stretch round later split keeps calls
  rw [List.append_assoc] at split
  obtain ⟨fewer, start, behind⟩ := exists_rounds_behind split
  obtain ⟨_, _, last⟩ := exists_rounds_behind behind
  have counted := countP_le_expansions behind keeps
  have within := ((count_of_first last).2 calls).1
  omega

set_option maxRecDepth 100000 in
/-- With a limit of two, two definitions are called one after the other, and the third one
is a fault. -/
theorem definitions_limited_two :
    let text := "\\newcommand\\a\x7b\\b\x7d\\newcommand\\b\x7b\\c\x7d\\newcommand\\c\x7bx\x7d"
    let engine := (left (parseTextWithin 100 text
      (fresh { expansionLimit := 2 } default ⟨2021, 3, 4⟩ .empty))).withText "\\a"
    ∃ first second, rounds (Engine.interpreter 100) 100 engine = [first, second] ∧
      second.before.settings.expansionLimit = 2 ∧
      [first].countP Round.callsDefinition + 1 ≤ second.before.settings.expansionLimit ∧
      ∃ token after, nextItemWithin (Engine.interpreter 101) 1 second.after =
        .error { fault := .runaway token 2 } after := by
  rw [fresh, Builtin.scopes_eq]
  intro text engine
  have facts : (rounds (Engine.interpreter 100) 100 engine).map (fun round =>
      (round.callsDefinition && decide round.KeepsCount && round.after.buffer.isEmpty,
        round.before.settings.expansionLimit,
        match nextToken round.after with
        | .ok (some token) before => ((calledDefinition? token before).isSome,
            before.expansions, before.settings.expansionLimit)
        | _ => (false, 0, 0))) = [(true, 2, true, 1, 2), (true, 2, true, 2, 2)] := by
    decide +kernel
  match known : rounds (Engine.interpreter 100) 100 engine with
  | [first, second] =>
      rw [known] at facts
      simp only [List.map_cons, List.map_nil, List.cons.injEq, Prod.mk.injEq, Bool.and_eq_true,
        decide_eq_true_eq, and_true] at facts
      obtain ⟨⟨⟨⟨-, firstKeeps⟩, -⟩, -⟩, ⟨⟨secondCalls, -⟩, noBuffer⟩, limit, behind⟩ := facts
      refine ⟨first, second, rfl, limit, ?_, ?_⟩
      · refine (definitions_limited 100 100 engine).1 [] [first] second [] known ?_ secondCalls
        simpa using firstKeeps
      · split at behind
        · next token before wasRead =>
            simp only [Prod.mk.injEq] at behind
            obtain ⟨isCalling, reached, isLimit⟩ := behind
            obtain ⟨rule, calls⟩ := Option.isSome_iff_exists.mp isCalling
            have fails := (definitions_limited 100 0 second.after).2 token before rule
              (List.isEmpty_iff.mp noBuffer) wasRead calls (by omega)
            rw [isLimit] at fails
            exact ⟨token, _, fails⟩
        · simp at behind
  | [] | [_] | _ :: _ :: _ :: _ =>
      rw [known] at facts
      simp at facts

/-! ## Environments are not guarded -/

/-- A token that is an environment is replaced by the code that the environment begins
with, and this is not counted. -/
theorem tokenItem_environment (fuel : Nat) {own : String} {opening closing : Definition}
    (isControl : token.isControl = true)
    (isEnvironment : engine.scopes.command? token.text = some (.environment own opening closing))
    (bare : opening.readArguments engine.scopes.categories token.text engine.input =
      (.ok [], engine.input)) :
    tokenItem (Engine.interpreter (fuel + 1)) token engine =
      .ok none { engine with input := engine.input.pushTokens (opening.apply []) } := by
  have isName : token.commandName? = some token.text := by
    have isEscape : token.category = .escape := by simpa [Token.isControl] using isControl
    simp [Token.commandName?, isEscape]
  have called : callDefinition opening token engine = .ok (opening.apply []) engine := by
    have read : reading (fun table input => opening.readArguments table token.text input) engine =
        .ok (opening.readArguments engine.scopes.categories token.text engine.input).1
          { engine with
            input := (opening.readArguments engine.scopes.categories token.text engine.input).2 } :=
      rfl
    rw [bare] at read
    simp only [callDefinition, readCall, readingOrFail, bind, EStateM.bind, read]
    rfl
  have executes : execute (Engine.interpreter (fuel + 1)) token
      (.environment own opening closing) engine =
        .ok none { engine with input := engine.input.pushTokens (opening.apply []) } := by
    simp only [execute, bind, EStateM.bind, called]
    rfl
  rw [tokenItem_command isName isEnvironment]
  simp only [itemOf, invoke, bind, EStateM.bind,
    idles_interpreter fuel token (.environment own opening closing) engine rfl,
    Bool.false_eq_true, if_false, executes]
  rfl

/-- A pending control sequence that is no alias is the next token. -/
theorem nextToken_pending {name : String} {pending : List Token} {below : List Source}
    (calls : engine.input = ⟨.tokens (.control name :: pending) :: below⟩)
    (noAlias : engine.scopes.alias? name = none) :
    nextToken engine =
      .ok (some (.control name)) { engine with input := ⟨.tokens pending :: below⟩ } := by
  have raw : nextRaw engine =
      .ok (some (.control name)) { engine with input := ⟨.tokens pending :: below⟩ } := by
    have whole : nextRaw engine = .ok (engine.input.next engine.scopes.categories).1
      { engine with input := (engine.input.next engine.scopes.categories).2 } := rfl
    rw [whole, calls]
    rfl
  have isControl : (Token.control name).isControl = true := rfl
  have hasText : (Token.control name).text = name := rfl
  simp only [nextToken, bind, EStateM.bind, raw, isControl, if_true, get_run, hasText, noAlias]
  rfl

/-- An environment whose code begins with its own name is called as often as there are
steps, whatever the limit is. -/
theorem environment_unguarded (fuel : Nat) {name own : String} {opening closing : Definition}
    {more pending : List Token} {below : List Source} (steps : Nat)
    (noBuffer : engine.buffer = [])
    (calls : engine.input = ⟨.tokens (.control name :: pending) :: below⟩)
    (noAlias : engine.scopes.alias? name = none)
    (isEnvironment : engine.scopes.command? name = some (.environment own opening closing))
    (bare : ∀ table input, opening.readArguments table name input = (.ok [], input))
    (code : opening.apply [] = .control name :: more) :
    (rounds (Engine.interpreter (fuel + 1)) steps engine).length = steps ∧
      ∃ after, after.expansions = engine.expansions ∧
        nextItemWithin (Engine.interpreter (fuel + 1)) steps engine =
          .error { fault := .outOfFuel } after := by
  induction steps generalizing engine pending with
  | zero => exact ⟨rfl, engine, rfl, rfl⟩
  | succ steps ih =>
      let read : Engine := { engine with input := ⟨.tokens pending :: below⟩ }
      let pushed : Engine :=
        { read with input := ⟨.tokens (.control name :: (more ++ pending)) :: below⟩ }
      have wasRead : nextToken engine = .ok (some (.control name)) read :=
        nextToken_pending calls noAlias
      have gaveNone : tokenItem (Engine.interpreter (fuel + 1)) (.control name) read =
          .ok none pushed := by
        rw [tokenItem_environment fuel rfl isEnvironment (bare _ _), code]
        rfl
      obtain ⟨length, after, uncounted, ended⟩ :=
        @ih pushed (more ++ pending) noBuffer rfl noAlias isEnvironment
      refine ⟨?_, after, uncounted, ?_⟩
      · rw [rounds]
        simp only [noBuffer, wasRead, gaveNone, List.length_cons, length]
      · exact (nextItemWithin_of_none noBuffer wasRead gaveNone steps).trans ended

end TexTree.Engine
