import TexTree.Proofs.Engine.Calling
import TexTree.Proofs.Engine.Doubling
import TexTree.Proofs.Engine.FullExpansion

/-!
# Expansions that spare parameter characters

Complete expansion goes on from one parameter character to the next.  A step spares them if it
changes only what stands in front of the next one, takes it neither away nor puts one there, and
does the same whatever stands behind it (`Spares`).  Calls of definitions are such steps if there
is no parameter character in their arguments and in their replacement texts (`spares_call`).

Where all steps spare the parameter characters (`Expands`), doubling these doubles them in the
result and changes nothing else (`Expands.doubled`).
-/

namespace TexTree.Engine

open Definition (isParameter doubled)

variable {interpreter : Interpreter} {engine middle after start : Engine} {token : Token}
  {tokens front given result behind : List Token} {steps : Nat}

/-! ## Single steps -/

/-- The tokens begin with a parameter character, or with the end of what is expanded. -/
def Fenced (tokens : List Token) : Prop :=
  ∃ first ∈ tokens.head?, isParameter first = true ∨ first.endsExpansion = true

/-- A token is expanded, and with it what stands in front of the next parameter character.  That
character is not taken, none is given, and nothing depends on what stands behind it. -/
structure Spares (interpreter : Interpreter) (engine : Engine) (token : Token)
    (front given : List Token) (after : Engine) : Prop where
  isControl : token.isControl = true
  noneTaken : ∀ other ∈ front, isParameter other = false
  noneGiven : ∀ other ∈ given, isParameter other = false
  runs : ∀ (read : Token) (behind : List Token) (start : Engine), read.bare = token.bare →
    Fenced behind → GoesOn engine (front ++ behind) start →
      Runs (expandsToken interpreter read) start fun gone final =>
        gone = true ∧ GoesOn after (given ++ behind) final

theorem GoesOn.runs_countExpansion (few : engine.expansions < engine.settings.expansionLimit)
    (goesOn : GoesOn engine tokens start) (token : Token) :
    Runs (countExpansion token) start fun _ final =>
      GoesOn { engine with expansions := engine.expansions + 1 } tokens final := by
  obtain ⟨input, rfl, ahead⟩ := goesOn.exists_input
  refine runs_modify_bind (runs_get ?_)
  dsimp only
  rw [if_neg (Nat.not_lt_of_le few)]
  exact runs_pure ⟨rfl, ahead⟩

theorem Spares.plain (spares : Spares interpreter engine token front given after) :
    isParameter token = false := by
  have isEscape : token.category = .escape := by
    simpa [Token.isControl] using spares.isControl
  simp [isParameter, isEscape]

/-- A call that is written for some arguments is replaced by the text of the definition. -/
theorem GoesOn.runs_callDefinition {rule : Definition} {call : List Token}
    {arguments : List (List Token)} (calls : rule.Calls call arguments)
    (goesOn : GoesOn engine (call ++ tokens) start) (token : Token) :
    Runs (callDefinition rule token) start fun list final =>
      list.map Token.bare = (rule.apply arguments).map Token.bare ∧ GoesOn engine tokens final := by
  obtain ⟨found, rest, isRead, same, left⟩ :=
    calls.readArguments token.text (goesOn.ahead.trans (List.map_append ..))
  have reads : Runs (readCall rule token) start fun arguments final =>
      arguments = found ∧ GoesOn engine tokens final := by
    refine (goesOn.runs_reading isRead left).bind ?_
    rintro _ final ⟨rfl, goesOn⟩
    exact runs_pure ⟨rfl, goesOn⟩
  refine reads.bind ?_
  rintro _ final ⟨rfl, goesOn⟩
  refine runs_pure ⟨?_, goesOn⟩
  rw [Definition.apply, Definition.map_bare_substitute, same, Definition.apply,
    Definition.map_bare_substitute]

/-- A call of a definition spares the parameter characters that are neither in its arguments nor in
the replacement text. -/
theorem spares_call {rule : Definition} {arguments : List (List Token)} {call more : List Token}
    (isControl : token.isControl = true) (noAlias : engine.scopes.alias? token.text = none)
    (bound : engine.scopes.command? token.text = some (.definition rule))
    (unprotected : rule.isProtected = false) (calls : rule.Calls call arguments)
    (few : engine.expansions < engine.settings.expansionLimit)
    (noneTaken : ∀ other ∈ call ++ more, isParameter other = false)
    (noneGiven : ∀ other ∈ rule.apply arguments ++ more, isParameter other = false)
    (fuel : Nat) :
    Spares (Engine.interpreter (fuel + 1)) engine token (call ++ more)
      (rule.apply arguments ++ more) { engine with expansions := engine.expansions + 1 } := by
  refine ⟨isControl, noneTaken, noneGiven, ?_⟩
  intro read behind start same _ goesOn
  have isEscape : read.category = .escape := by
    rw [← Token.isControl_bare, ← same] at isControl
    simpa [Token.isControl] using isControl
  have isText : read.text = token.text := congrArg (·.text) same
  obtain ⟨input, rfl, ahead⟩ := goesOn.exists_input
  unfold expandsToken
  simp only [isEscape]
  refine runs_get ?_
  simp only [isText, noAlias, bound, unprotected, Bool.false_eq_true, if_false]
  change Runs (expandCommand (Engine.interpreter fuel) read (.definition rule)) _ _
  unfold expandCommand
  simp only [Command.isExpandable, Bool.not_true, Bool.false_eq_true, if_false]
  refine (goesOn.runs_countExpansion few read).bind ?_
  intro _ counted goesOn
  rw [List.append_assoc] at goesOn
  refine (goesOn.runs_callDefinition calls read).bind ?_
  rintro list called ⟨sameText, goesOn⟩
  refine (goesOn.runs_pushTokens sameText).bind ?_
  intro _ final goesOn
  rw [← List.append_assoc] at goesOn
  exact runs_pure ⟨rfl, goesOn⟩

/-! ## Complete expansion -/

/-- The tokens are expanded completely in so many steps, with the given result, and all steps spare
the parameter characters. -/
inductive Expands (interpreter : Interpreter) :
    Nat → Engine → List Token → List Token → Engine → Prop where
  | done (engine : Engine) : Expands interpreter 0 engine [] [] engine
  | keep {engine after : Engine} {steps : Nat} {token : Token} {tokens result : List Token}
      (notMarker : token.category ≠ .endOfList)
      (normal : token.isControl = true → engine.scopes.Normal token.text)
      (others : Expands interpreter steps engine tokens result after) :
      Expands interpreter (steps + 1) engine (token :: tokens) (token.thawed :: result) after
  | expand {engine middle after : Engine} {steps : Nat} {token : Token}
      {front given tokens result : List Token}
      (spares : Spares interpreter engine token front given middle)
      (ends : ∀ first ∈ tokens.head?, isParameter first = true)
      (others : Expands interpreter steps middle (given ++ tokens) result after) :
      Expands interpreter (steps + 1) engine (token :: (front ++ tokens)) result after

/-- Tokens that are all kept are their own expansion. -/
theorem Expands.of_kept (kept : ∀ token ∈ tokens, Kept engine.scopes.Normal token) :
    Expands interpreter tokens.length engine tokens tokens engine := by
  induction tokens with
  | nil => exact .done engine
  | cons token tokens ih =>
      rw [List.forall_mem_cons] at kept
      obtain ⟨⟨notMarker, notFrozen, normal⟩, kept⟩ := kept
      have step := Expands.keep notMarker normal (ih kept)
      rwa [Token.thawed, if_neg notFrozen] at step

theorem doubled_of_plain (plain : ∀ token ∈ tokens, isParameter token = false) :
    doubled tokens = tokens := by
  induction tokens with
  | nil => rfl
  | cons token tokens ih =>
      rw [List.forall_mem_cons] at plain
      rw [Definition.doubled_plain plain.1, ih plain.2]

@[simp] theorem isParameter_thawed (token : Token) :
    isParameter token.thawed = isParameter token := by
  unfold Token.thawed
  split
  · next isFrozen => simp [isParameter, isFrozen, Token.control]
  · rfl

namespace Expands

/-- The parameter characters of the result are those of the tokens. -/
theorem filter_isParameter (expands : Expands interpreter steps engine tokens result after) :
    result.filter isParameter = tokens.filter isParameter := by
  induction expands with
  | done => rfl
  | @keep engine after steps token tokens result notMarker normal _ ih =>
      cases isDoubled : isParameter token with
      | true =>
          have isThawed : token.thawed = token := by
            have category : token.category = .parameter := by simpa [isParameter] using isDoubled
            simp [Token.thawed, category]
          rw [isThawed, List.filter_cons_of_pos isDoubled, List.filter_cons_of_pos isDoubled, ih]
      | false =>
          rw [List.filter_cons_of_neg (by simp [isDoubled]),
            List.filter_cons_of_neg (by simp [isDoubled]), ih]
  | @expand engine middle after steps token front given tokens result spares ends _ ih =>
      have none : ∀ {list : List Token}, (∀ other ∈ list, isParameter other = false) →
          list.filter isParameter = [] :=
        fun plain => List.filter_eq_nil_iff.mpr (by simpa using plain)
      rw [ih, List.filter_append, none spares.noneGiven,
        List.filter_cons_of_neg (by simp [spares.plain]), List.filter_append,
        none spares.noneTaken]

/-- Where the parameter characters are doubled, they are doubled in the result, and nothing else is
different. -/
theorem doubled (expands : Expands interpreter steps engine tokens result after) :
    ∃ more ≤ 2 * steps,
      Expands interpreter more engine (doubled tokens) (doubled result) after := by
  induction expands with
  | done engine => exact ⟨0, Nat.le_refl 0, .done engine⟩
  | @keep engine after steps token tokens result notMarker normal _ ih =>
      obtain ⟨more, bound, others⟩ := ih
      have once := Expands.keep notMarker normal others
      cases isDoubled : isParameter token with
      | true =>
          refine ⟨more + 2, by omega, ?_⟩
          rw [Definition.doubled_parameter isDoubled,
            Definition.doubled_parameter ((isParameter_thawed token).trans isDoubled)]
          exact .keep notMarker normal once
      | false =>
          refine ⟨more + 1, by omega, ?_⟩
          rw [Definition.doubled_plain isDoubled,
            Definition.doubled_plain ((isParameter_thawed token).trans isDoubled)]
          exact once
  | @expand engine middle after steps token front given tokens result spares ends _ ih =>
      obtain ⟨more, bound, others⟩ := ih
      refine ⟨more + 1, by omega, ?_⟩
      rw [Definition.doubled_append, doubled_of_plain spares.noneGiven] at others
      rw [Definition.doubled_plain spares.plain, Definition.doubled_append,
        doubled_of_plain spares.noneTaken]
      refine .expand spares ?_ others
      rwa [Definition.head?_doubled]

/-- The loop collects the result up to the marker. -/
theorem runs_expandFullyWithin (expands : Expands interpreter steps engine tokens result after)
    (idles : Idles interpreter) {limit : Nat} (enough : steps < limit)
    (goesOn : GoesOn engine (tokens ++ .endOfList "expand" :: behind) start) (read : List Token) :
    Runs (expandFullyWithin interpreter limit read) start fun list _ =>
      list.map Token.bare = (read.reverse ++ result).map Token.bare := by
  induction expands generalizing start limit read with
  | done engine =>
      obtain ⟨limit, rfl⟩ := Nat.exists_eq_succ_of_ne_zero (Nat.ne_of_gt enough)
      rw [expandFullyWithin_succ]
      refine goesOn.runs_nextRaw.bind ?_
      rintro _ final ⟨⟨token, rfl, same⟩, goesOn⟩
      have ends : token.endsExpansion = true := by
        rw [← Token.endsExpansion_bare, same]
        rfl
      simp only [ends, if_true]
      exact runs_modify_bind (runs_pure (by rw [List.append_nil]))
  | @keep engine after steps token tokens result notMarker normal _ ih =>
      obtain ⟨limit, rfl⟩ := Nat.exists_eq_succ_of_ne_zero (Nat.ne_of_gt (Nat.zero_lt_of_lt enough))
      rw [expandFullyWithin_succ]
      refine goesOn.runs_nextRaw.bind ?_
      rintro _ between ⟨⟨found, rfl, same⟩, goesOn⟩
      have sameScopes : between.scopes = engine.scopes := by rw [goesOn.unchanged]
      have foundMarker : found.category ≠ .endOfList := by
        rwa [← Token.category_bare, same]
      have foundNormal : found.isControl = true → between.scopes.Normal found.text := by
        rwa [sameScopes, ← Token.isControl_bare, ← Token.text_bare, same]
      have goesFurther : found.endsExpansion = false := by
        simp [Token.endsExpansion, foundMarker]
      simp only [goesFurther, Bool.false_eq_true, if_false]
      refine (runs_expandsToken idles foundMarker foundNormal).bind ?_
      rintro _ _ ⟨rfl, rfl⟩
      refine (ih (Nat.lt_of_succ_lt_succ enough) goesOn (found.thawed :: read)).mono ?_
      intro list _ isRead
      have sameThawed : found.thawed.bare = token.thawed.bare := by
        rw [← Token.thawed_bare, same, Token.thawed_bare]
      rw [isRead]
      simp [sameThawed]
  | @expand engine middle after steps token front given tokens result spares ends _ ih =>
      obtain ⟨limit, rfl⟩ := Nat.exists_eq_succ_of_ne_zero (Nat.ne_of_gt (Nat.zero_lt_of_lt enough))
      rw [expandFullyWithin_succ]
      rw [List.cons_append, List.append_assoc] at goesOn
      refine goesOn.runs_nextRaw.bind ?_
      rintro _ between ⟨⟨found, rfl, same⟩, goesOn⟩
      have fenced : Fenced (tokens ++ .endOfList "expand" :: behind) := by
        cases tokens with
        | nil => exact ⟨_, rfl, .inr rfl⟩
        | cons first tokens => exact ⟨first, rfl, .inl (ends first rfl)⟩
      have goesFurther : found.endsExpansion = false := by
        have isEscape : found.category = .escape := by
          rw [← Token.category_bare, same]
          simpa [Token.isControl] using spares.isControl
        simp [Token.endsExpansion, isEscape]
      simp only [goesFurther, Bool.false_eq_true, if_false]
      refine (spares.runs found _ between same fenced goesOn).bind ?_
      rintro _ last ⟨rfl, goesOn⟩
      rw [← List.append_assoc] at goesOn
      exact ih (Nat.lt_of_succ_lt_succ enough) goesOn read

theorem runs_expandFully (expands : Expands interpreter steps engine tokens result after)
    (idles : Idles interpreter) (enough : steps < interpreter.limit)
    (goesOn : GoesOn engine behind start) {pushed : List Token}
    (same : pushed.map Token.bare = tokens.map Token.bare) :
    Runs (expandFully interpreter pushed) start fun list _ =>
      list.map Token.bare = result.map Token.bare := by
  have sameMarked : (pushed ++ [Token.endOfList "expand"]).map Token.bare =
      (tokens ++ [Token.endOfList "expand"]).map Token.bare := by
    rw [List.map_append, List.map_append, same]
  refine (goesOn.runs_pushTokens sameMarked).bind ?_
  intro _ marked goesOn
  rw [List.append_assoc, List.singleton_append] at goesOn
  exact expands.runs_expandFullyWithin idles enough goesOn []

end Expands

end TexTree.Engine
