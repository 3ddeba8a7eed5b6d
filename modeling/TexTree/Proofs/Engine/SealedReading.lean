import TexTree.Proofs.Engine.SealedNumbers

/-!
# Interpreting a token list

Whatever is expanded in a harmless token list, and whatever is read from it, keeps the
list complete, marker included.  So what reads from the list leaves the input behind the
list alone, and the list is dropped with nothing else (`input_kept`).
-/

namespace TexTree

namespace Engine

variable {enclosure : Enclosure} {interpreter : Interpreter}

/-! ## Expansion -/

/-- The characters of an integer are harmless. -/
theorem harmless_integer (enclosure : Enclosure) (value : Int) :
    ∀ token ∈ Token.ofPlainText (toString value),
      enclosure.harmless token ∧ token.category ≠ .beginGroup := by
  have characters : ∀ character ∈ (toString value).toList,
      character.isDigit = true ∨ character = '-' := by
    intro character member
    have ofNat : ∀ number : Nat, character ∈ number.repr.toList → character.isDigit = true := by
      intro number isIn
      rw [Nat.toList_repr] at isIn
      exact Nat.isDigit_of_mem_toDigits (by decide) (by decide) isIn
    rw [Int.toString_eq_repr, Int.repr_eq_if] at member
    split at member
    · exact .inl (ofNat _ member)
    · rw [String.toList_append, List.mem_append] at member
      rcases member with isSign | isDigit
      · exact .inr (by simpa using isSign)
      · exact .inl (ofNat _ isDigit)
  intro token member
  obtain ⟨character, isIn, rfl⟩ := List.mem_map.mp member
  have notSpace : character ≠ ' ' := by
    rintro rfl
    exact absurd (characters ' ' isIn) (by decide)
  have notQuote : character ≠ '`' := by
    rintro rfl
    exact absurd (characters '`' isIn) (by decide)
  simp only [beq_iff_eq, notSpace, if_false]
  exact ⟨enclosure.shields.characters character notQuote, by simp [Token.other, Token.ofChar]⟩

theorem keeps_pushTokens {tokens : List Token}
    (each : ∀ token ∈ tokens, enclosure.harmless token)
    (closes : Input.closesBraces tokens = true) : Keeps enclosure (pushTokens tokens) := by
  intro engine on
  refine results_modify ?_
  have pushed := on.push each closes
  rwa [List.append_nil] at pushed

theorem keeps_pushInteger (value : Int) :
    Keeps enclosure (pushTokens (Token.ofPlainText (toString value))) :=
  keeps_pushTokens (fun token member => (harmless_integer enclosure value token member).1)
    (Input.closesBraces_of_forall fun token member =>
      (harmless_integer enclosure value token member).2)

theorem keeps_readName : Keeps enclosure readName := by
  intro engine on
  obtain ⟨tokens, each, closes, isInput⟩ := on.rest (by simp)
  rw [List.nil_append] at each closes
  refine results_readingOrFail fun name input found => ?_
  rw [isInput] at found
  obtain ⟨rest, input, before, rfl⟩ := Input.nameArgument_under rfl closes
    (fun token member => (enclosure.shields.inside token (each token member)).2) found
  refine ⟨on.scopes, rest, rest ++ [enclosure.marker], ?_, Input.closesBraces_of_append closes,
    rfl, input⟩
  exact fun token member => each token (List.mem_append_right before member)

/-- Tame commands are replaced by harmless tokens. -/
theorem keeps_expansionOf (respects : interpreter.Respects enclosure) {name : String}
    {expansion : Expansion} (token : Token)
    (tame : (Command.primitive name (.expansion expansion)).Tame enclosure.harmless) :
    Keeps enclosure (expansionOf interpreter token expansion >>= pushTokens) := by
  cases expansion with
  | fixed tokens => exact keeps_pushTokens tame.1 tame.2
  | nothing => exact keeps_pushTokens (by simp) rfl
  | integer =>
      simp only [expansionOf, bind_assoc, pure_bind]
      exact (keeps_readInteger respects).bind keeps_pushInteger
  | counterValue =>
      simp only [expansionOf, bind_assoc]
      refine keeps_readName.bind fun name => keeps_get.bind fun engine => ?_
      split
      · exact keeps_pushInteger _
      · rw [bind_assoc]
        exact (keeps_warn _ _).bind fun _ => keeps_pushInteger 0
  | _ => exact absurd tame id

/-- A definition without parameters takes nothing from the input. -/
theorem keeps_callDefinition {rule : Definition} (token : Token)
    (tame : (Command.definition rule).Tame enclosure.harmless) :
    Keeps enclosure (callDefinition rule token >>= pushTokens) := by
  obtain ⟨noParameters, each, closes⟩ := tame
  have noArguments : ∀ table input,
      rule.readArguments table token.text input = (.ok [], input) := by
    intro table input
    have none : rule.arity = 0 := by simp [Definition.arity, noParameters]
    rw [Definition.readArguments, none]
    split
    · next equal => cases equal
    · rfl
    · rw [noParameters, Definition.matchSignature]
  intro engine on
  have read : Results (readCall rule token) engine fun arguments after =>
      arguments = [] ∧ after = engine := by
    refine results_readingOrFail fun arguments input found => ?_
    rw [noArguments] at found
    cases found
    exact ⟨rfl, rfl⟩
  rw [callDefinition, bind_assoc]
  refine read.bind ?_
  rintro _ _ ⟨rfl, rfl⟩
  rw [pure_bind]
  exact keeps_pushTokens each closes _ on

theorem results_countExpansion {engine : Engine} {taken : List Token} (token : Token)
    (isTaken : enclosure.Taken taken engine) :
    Results (countExpansion token) engine fun _ after => enclosure.Taken taken after := by
  have counted : Results (modify fun engine : Engine =>
      { engine with expansions := engine.expansions + 1 }) engine
      fun _ after => enclosure.Taken taken after := results_modify (isTaken.same rfl rfl)
  refine counted.bind fun _ after isTaken => results_get.bind ?_
  rintro _ _ ⟨rfl, rfl⟩
  split
  · exact results_fail
  · exact results_pure isTaken

theorem results_expandCommand (respects : interpreter.Respects enclosure) {token : Token}
    {command : Command} {engine : Engine} (isControl : token.isControl = true)
    (found : enclosure.scopes.command? token.text = some command)
    (isTaken : enclosure.Taken [token] engine) :
    Results (expandCommand interpreter token command) engine fun expanded after =>
      if expanded then enclosure.On after else enclosure.Taken [token] after := by
  have notMarker := category_of_isControl isControl
  unfold expandCommand
  cases isExpandable : command.isExpandable with
  | false => exact results_pure isTaken
  | true =>
      have tame := enclosure.shields.tame token command (isTaken.harmless notMarker) isControl found
        isExpandable
      refine (results_countExpansion token isTaken).bind fun _ after isTaken => ?_
      have replaced : ∀ {replace : TexM Unit}, Keeps enclosure replace →
          Results (do replace; return true) after fun expanded last =>
            if expanded then enclosure.On last else enclosure.Taken [token] last :=
        fun keeps => (keeps.behind isTaken notMarker).bind fun _ _ on => results_pure on
      cases command with
      | primitive name behaviour =>
          cases behaviour with
          | expansion expansion =>
              have whole := replaced (keeps_expansionOf respects token tame)
              rwa [bind_assoc] at whole
          | _ => exact absurd tame id
      | definition rule =>
          have whole := replaced (keeps_callDefinition token tame)
          rwa [bind_assoc] at whole
      | _ => exact absurd tame id

/-- No interpreter leaves the list. -/
theorem respects_interpreter (enclosure : Enclosure) (fuel : Nat) :
    (Engine.interpreter fuel).Respects enclosure := by
  induction fuel with
  | zero => exact fun token command engine _ _ _ => results_fail
  | succ fuel ih =>
      intro token command engine isControl found isTaken
      exact results_expandCommand ih isControl found isTaken

/-! ## The whole list -/

theorem results_expandFullyWithin (respects : interpreter.Respects enclosure)
    (isNamed : enclosure.name = "expand") (steps : Nat) {engine : Engine} {read : List Token}
    (on : enclosure.On engine) :
    Results (expandFullyWithin interpreter steps read) engine fun _ after =>
      after.input = enclosure.below.lifted := by
  induction steps generalizing engine read with
  | zero => exact results_fail
  | succ steps ih =>
      refine (results_nextRaw on).bind ?_
      rintro _ after ⟨token, rfl, isTaken⟩
      have goesOn : ∀ {more : List Token}, token.category ≠ .endOfList →
          Results (expandFullyWithin interpreter steps more) after fun _ last =>
            last.input = enclosure.below.lifted :=
        fun notMarker => ih (isTaken.drop_single notMarker)
      dsimp only
      split
      · next isMarker =>
          have isNamed : (token.text == "expand") = true := by
            rcases isTaken.harmless_or with isHarmless | rfl
            · exact absurd isMarker (enclosure.shields.inside token isHarmless).1
            · simpa [Enclosure.marker, Token.endOfList] using isNamed
          rw [if_pos isNamed]
          refine (results_clearExpansions isTaken).bind fun _ last isTaken => ?_
          exact results_pure (isTaken.ended isMarker)
      · next isFrozen => exact goesOn (by simp [isFrozen])
      · next isEscape =>
          have isControl : token.isControl = true := by simp [Token.isControl, isEscape]
          refine results_get.bind ?_
          rintro _ _ ⟨rfl, rfl⟩
          have notMarker := category_of_isControl isControl
          rw [isTaken.scopes]
          split
          · next command _ found =>
              -- Protected definitions stay as they are.
              refine iteInduction (motive := fun computation => Results computation _ _)
                (fun _ => goesOn notMarker) fun _ => ?_
              refine (respects token command _ isControl found isTaken).bind ?_
              intro expanded last outcome
              cases expanded with
              | true => exact ih outcome
              | false => exact ih (outcome.drop_single notMarker)
          · exact goesOn notMarker
      · next notMarker _ _ => exact goesOn notMarker

/-- What is left of the list is dropped with the marker. -/
theorem input_dropRest (isNamed : enclosure.name = "cast") {engine : Engine}
    (on : enclosure.On engine) : engine.dropRest.input = enclosure.below.lifted := by
  obtain ⟨rest, each, _, isInput⟩ := on.rest (by simp)
  have passed : ∀ token ∈ rest,
      (token.category == .endOfList && token.text == "cast") = false := by
    intro token member
    have inside := (enclosure.shields.inside token (each token member)).1
    simp [inside]
  have stops : (enclosure.marker.category == .endOfList && enclosure.marker.text == "cast") =
      true := by
    simp [Enclosure.marker, Token.endOfList, isNamed]
  have through : (engine.input.throughToken engine.scopes.categories fun token =>
      token.category == .endOfList && token.text == "cast").2.2 = enclosure.below.lifted := by
    rw [isInput, Input.throughToken_under passed stops]
  rw [dropRest]
  dsimp only
  split
  · exact through
  · exact through

/-- If the computation succeeds, the input is as before, except that a token list
without tokens may lie on top of it. -/
def KeepsInput {α : Type} (computation : TexM α) (engine : Engine) : Prop :=
  Results computation engine fun _ after =>
    after.input = engine.input.lifted ∧
      ∀ table, after.input.next table = engine.input.next table

theorem keepsInput_of_lifted {α : Type} {computation : TexM α} {engine : Engine}
    (lifted : Results computation engine fun _ after => after.input = engine.input.lifted) :
    KeepsInput computation engine := by
  intro value after equal
  have isLifted := lifted value after equal
  refine ⟨isLifted, fun table => ?_⟩
  rw [isLifted, Input.next_lifted]

/-- The list is on the input when the tokens and the marker have been pushed. -/
theorem results_pushList {engine : Engine} {harmless : Token → Prop} {tokens : List Token}
    (name : String) (shields : engine.scopes.Shields harmless)
    (each : ∀ token ∈ tokens, harmless token) (closes : Input.closesBraces tokens = true) :
    Results (pushTokens (tokens ++ [.endOfList name])) engine fun _ after =>
      Enclosure.On ⟨harmless, engine.scopes, shields, name, engine.input⟩ after := by
  refine results_modify ⟨rfl, tokens, tokens ++ [.endOfList name], each, closes, rfl, ?_⟩
  cases tokens with
  | nil => exact Input.pushTokens_eq_under _ _
  | cons first tokens => exact Input.pushTokens_eq_under _ _

theorem keepsInput_readingTokens {α : Type} {computation : TexM α} {engine : Engine}
    {harmless : Token → Prop} {tokens : List Token} (shields : engine.scopes.Shields harmless)
    (each : ∀ token ∈ tokens, harmless token) (closes : Input.closesBraces tokens = true)
    (keeps : ∀ enclosure, Keeps enclosure computation) :
    KeepsInput (readingTokens tokens computation) engine := by
  refine keepsInput_of_lifted ((results_pushList "cast" shields each closes).bind ?_)
  intro _ pushed on value after equal
  rw [ensuring] at equal
  cases outcome : computation pushed with
  | ok found last =>
      rw [outcome] at equal
      cases equal
      exact input_dropRest rfl (keeps _ pushed on _ _ outcome)
  | error error last =>
      rw [outcome] at equal
      cases equal

theorem keepsInput_expandFully {engine : Engine} {harmless : Token → Prop} {tokens : List Token}
    (shields : engine.scopes.Shields harmless) (each : ∀ token ∈ tokens, harmless token)
    (closes : Input.closesBraces tokens = true)
    (respects : ∀ enclosure, interpreter.Respects enclosure) :
    KeepsInput (expandFully interpreter tokens) engine := by
  refine keepsInput_of_lifted ((results_pushList "expand" shields each closes).bind ?_)
  exact fun _ pushed on => results_expandFullyWithin (respects _) rfl interpreter.limit on

/-- Integers, decimals, dimensions and glue that are read from harmless tokens, and harmless
tokens that are expanded completely, leave the input behind them as it is. -/
theorem input_kept {engine : Engine} {harmless : Token → Prop} {tokens : List Token} (fuel : Nat)
    (shields : engine.scopes.Shields harmless) (each : ∀ token ∈ tokens, harmless token)
    (closes : Input.closesBraces tokens = true) :
    KeepsInput (readingTokens tokens (readInteger (Engine.interpreter fuel))) engine ∧
      KeepsInput (readingTokens tokens (readFloat (Engine.interpreter fuel))) engine ∧
      KeepsInput (readingTokens tokens (readDimension (Engine.interpreter fuel))) engine ∧
      KeepsInput (readingTokens tokens (readGlue (Engine.interpreter fuel) false)) engine ∧
      KeepsInput (expandFully (Engine.interpreter fuel) tokens) engine := by
  have respects := fun enclosure => respects_interpreter enclosure fuel
  refine ⟨?_, ?_, ?_, ?_, keepsInput_expandFully shields each closes respects⟩
  · exact keepsInput_readingTokens shields each closes fun enclosure =>
      keeps_readInteger (respects enclosure)
  · exact keepsInput_readingTokens shields each closes fun enclosure =>
      keeps_readFloat (respects enclosure)
  · exact keepsInput_readingTokens shields each closes fun enclosure =>
      keeps_readDimensionIn (respects enclosure) false
  · exact keepsInput_readingTokens shields each closes fun enclosure =>
      keeps_readGlue (respects enclosure) false

/-- An engine with a text to read, where `\two` stands for a digit. -/
def withTwo : Engine :=
  { (default : Engine) with
    settings := { (default : Settings) with expansionLimit := 10 }
    input := Input.empty.pushText "abc" "file"
    scopes := (default : Scopes).setCommand "two"
      (.definition ⟨"two", .newCommand, [], none, [.token (.other '2')], false⟩) false }

theorem input_kept_two :
    (∃ after, readingTokens [.control "two", .space] (readInteger (Engine.interpreter 5)) withTwo =
      .ok 2 after) ∧
      KeepsInput (readingTokens [.control "two", .space] (readInteger (Engine.interpreter 5)))
        withTwo := by
  let harmless (token : Token) : Prop :=
    token = .control "two" ∨ token = .space ∨ token.category = .other ∧ token.text ≠ "`"
  have shields : withTwo.scopes.Shields harmless := by
    refine ⟨?_, ?_, ?_, ?_, ?_⟩
    · rintro token (rfl | rfl | ⟨isOther, _⟩)
      · decide
      · decide
      · simp [isOther]
    · rintro token (rfl | rfl | ⟨_, notQuote⟩) isOther
      · cases isOther
      · cases isOther
      · exact notQuote
    · intro character notQuote
      refine .inr (.inr ⟨rfl, fun isQuote => notQuote ?_⟩)
      simpa [Token.other, Token.ofChar] using congrArg String.toList isQuote
    · rintro token target (rfl | rfl | ⟨isOther, _⟩) isControl found
      · cases found
      · cases isControl
      · simp [Token.isControl, isOther] at isControl
    · rintro token command (rfl | rfl | ⟨isOther, _⟩) isControl found _
      · cases found
        refine ⟨rfl, fun token member => ?_, rfl⟩
        rw [show token = .other '2' by simpa [Definition.apply, Definition.substitute] using member]
        exact .inr (.inr ⟨rfl, by decide⟩)
      · cases isControl
      · simp [Token.isControl, isOther] at isControl
  refine ⟨⟨_, rfl⟩, (input_kept 5 shields ?_ rfl).1⟩
  intro token member
  have either : token = .control "two" ∨ token = .space := by simpa using member
  rcases either with rfl | rfl
  · exact .inl rfl
  · exact .inr (.inl rfl)

end Engine

end TexTree
