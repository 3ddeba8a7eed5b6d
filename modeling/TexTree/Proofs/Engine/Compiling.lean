import TexTree.Proofs.Engine.Facing
import TexTree.Proofs.Engine.Sparing

/-!
# Reading definitions

What the engine makes of a definition is described by a relation between its tokens and the
definition (`Compiles`), and what a replacement text becomes while it is read by another one
(`Yields`).  Both respect doubling.
-/

namespace TexTree

namespace Engine

variable {engine start after : Engine} {scopes : Scopes} {tokens behind : List Token}
  {interpreter : Interpreter}

/-! ## Reading definitions -/

open Definition (isParameter hasDoubled normalize signatureOf bodyOf doubled Alike ParameterText)

/-- What a definition makes of its parameter text, or of its replacement text. -/
def normalFor (parameters tokens : List Token) : List Token :=
  if hasDoubled parameters then normalize tokens else tokens

theorem map_bare_normalFor (parameters tokens : List Token) :
    (normalFor parameters tokens).map Token.bare =
      normalFor (parameters.map Token.bare) (tokens.map Token.bare) := by
  have same : hasDoubled (parameters.map Token.bare) = hasDoubled parameters := by
    fun_induction hasDoubled parameters with
    | case1 first second rest ih =>
        rw [List.map_cons] at ih
        simp [hasDoubled, ih]
    | case2 parameters short =>
        cases parameters with
        | nil => rfl
        | cons first rest =>
            cases rest with
            | nil => rfl
            | cons second rest => exact absurd rfl (short first second rest)
  rw [normalFor, normalFor, same]
  split
  · exact Definition.map_bare_normalize tokens
  · rfl

/-- What is left to do when the parameter text and the replacement text have been read. -/
def compileDefinition (name : String) (parameters body : List Token) : TexM Definition := do
  let isProtected ← takeProtected
  let (signature, signatureReports) := signatureOf (normalFor parameters parameters)
  let (items, bodyReports) := bodyOf (normalFor parameters body)
  reportAll (signatureReports ++ bodyReports)
  return { name, origin := .parameterText, signature, fallback := none, body := items,
           isProtected }

/-- A definition of the given parameter text and replacement text, up to the positions of
their tokens. -/
structure Compiles (parameters body : List Token) (rule : Definition) : Prop where
  origin : rule.origin = .parameterText
  signature : rule.signature.map DefinitionItem.bare =
    (signatureOf (normalFor parameters parameters)).1.map DefinitionItem.bare
  body : rule.body.map DefinitionItem.bare =
    (bodyOf (normalFor parameters body)).1.map DefinitionItem.bare

theorem runs_compileDefinition {parameters body found read : List Token}
    (sameFound : found.map Token.bare = parameters.map Token.bare)
    (sameRead : read.map Token.bare = body.map Token.bare) (name : String) (engine : Engine) :
    Runs (compileDefinition name found read) engine fun rule after =>
      Compiles parameters body rule ∧ after.scopes = engine.scopes ∧
        after.input = engine.input := by
  refine Runs.bind (runs_modifyGet ?_) fun _ _ holds => runs_modify_bind (runs_pure holds)
  refine ⟨⟨rfl, ?_, ?_⟩, rfl, rfl⟩
  · rw [Definition.map_bare_signatureOf, Definition.map_bare_signatureOf, map_bare_normalFor,
      map_bare_normalFor, sameFound]
  · rw [Definition.map_bare_bodyOf, Definition.map_bare_bodyOf, map_bare_normalFor,
      map_bare_normalFor, sameFound, sameRead]

/-- The replacement text of a definition when it is compiled: as it is written, or expanded
completely in so many steps that spare the parameter characters. -/
inductive Yields (interpreter : Interpreter) (engine : Engine) (body : List Token) :
    Nat → Bool → List Token → Prop where
  | unexpanded : Yields interpreter engine body 0 false body
  | expanded {steps : Nat} {result : List Token} {after : Engine}
      (expands : Expands interpreter steps engine body result after) :
      Yields interpreter engine body steps true result

/-- The parameter text and the replacement text are read, and compiled in the end. -/
theorem GoesOn.runs_readDefinition {parameters body : List Token} {opening closing : Token}
    {expanded : Bool} {post : Definition → Engine → Prop}
    (goesOn : GoesOn engine (parameters ++ opening :: (body ++ closing :: behind)) start)
    (noGroup : ∀ token ∈ parameters, token.category ≠ .beginGroup)
    (notTrailing : parameters.getLast?.any isParameter = false)
    (opens : opening.category = .beginGroup) (balanced : Input.braces 0 body = some 0)
    (closes : closing.category = .endGroup) (name : String)
    (compiles : ∀ found written between, found.map Token.bare = parameters.map Token.bare →
      written.map Token.bare = body.map Token.bare → GoesOn engine behind between →
        Runs (do
          let read ← if expanded then expandFully interpreter written else pure written
          compileDefinition name found read) between post) :
    Runs (readDefinition interpreter name expanded) start post := by
  unfold readDefinition
  let stop : Token → Bool := fun token => token.category == .beginGroup
  have passed : ∀ token ∈ parameters, stop token = false :=
    fun token member => by simpa [stop] using noGroup token member
  obtain ⟨found, last, rest, through, sameFound, left⟩ :=
    Input.throughToken_of_ahead (fun _ => rfl) passed (by simpa [stop] using opens) goesOn.ahead
  refine (goesOn.runs_reading (show _ = ((found, some last), rest) from ?_) left).bind ?_
  · simp only [stop] at through
    simp only [through]
  rintro _ after ⟨rfl, goesOn⟩
  have noTrailing : found.getLast?.any isParameter = false := by
    have same := congrArg (fun tokens => tokens.getLast?.any isParameter) sameFound
    simpa [Option.any_map, Function.comp_def, notTrailing] using same
  simp only [Option.isNone_some, Bool.false_eq_true, if_false, noTrailing]
  refine (goesOn.runs_readGroup balanced closes).bind ?_
  rintro written between ⟨sameWritten, goesOn⟩
  exact compiles found written between sameFound sameWritten goesOn

/-- A definition is compiled from what its replacement text yields. -/
theorem Yields.runs_readDefinition {parameters body result : List Token} {opening closing : Token}
    {steps : Nat} {expanded : Bool}
    (yields : Yields interpreter engine body steps expanded result) (idles : Idles interpreter)
    (enough : steps < interpreter.limit)
    (noGroup : ∀ token ∈ parameters, token.category ≠ .beginGroup)
    (notTrailing : parameters.getLast?.any isParameter = false)
    (opens : opening.category = .beginGroup) (balanced : Input.braces 0 body = some 0)
    (closes : closing.category = .endGroup) (name : String)
    (goesOn : GoesOn engine (parameters ++ opening :: (body ++ closing :: behind)) start) :
    Runs (readDefinition interpreter name expanded) start fun rule _ =>
      Compiles parameters result rule := by
  refine goesOn.runs_readDefinition noGroup notTrailing opens balanced closes name ?_
  intro found written between sameFound sameWritten goesOn
  cases yields with
  | unexpanded =>
      exact (runs_compileDefinition sameFound sameWritten name between).mono
        fun _ _ holds => holds.1
  | expanded expands =>
      refine (expands.runs_expandFully idles enough goesOn sameWritten).bind ?_
      intro read expanded same
      exact (runs_compileDefinition sameFound same name expanded).mono fun _ _ holds => holds.1

theorem Yields.doubled {body result : List Token} {steps : Nat} {expanded : Bool}
    (yields : Yields interpreter engine body steps expanded result) :
    ∃ more ≤ 2 * steps,
      Yields interpreter engine (doubled body) more expanded (doubled result) := by
  cases yields with
  | unexpanded => exact ⟨0, Nat.le_refl 0, .unexpanded⟩
  | expanded expands =>
      obtain ⟨more, bound, expands⟩ := expands.doubled
      exact ⟨more, bound, .expanded expands⟩

/-- The parameter characters in a list are all the same. -/
def SameParameters (tokens : List Token) : Prop :=
  ∀ first ∈ tokens, ∀ second ∈ tokens,
    isParameter first = true → isParameter second = true → first.same second = true

/-- The parameter characters of what a replacement text yields are its own. -/
theorem Yields.sameParameters {body result : List Token} {steps : Nat} {expanded : Bool}
    (yields : Yields interpreter engine body steps expanded result) (same : SameParameters body) :
    SameParameters result := by
  cases yields with
  | unexpanded => exact same
  | expanded expands =>
      have inBody : ∀ token ∈ result, isParameter token = true → token ∈ body := by
        intro token member isDoubled
        have listed : token ∈ result.filter isParameter := List.mem_filter.mpr ⟨member, isDoubled⟩
        rw [expands.filter_isParameter] at listed
        exact List.mem_of_mem_filter listed
      intro first isFirst second isSecond isDoubled isDoubledToo
      exact same first (inBody first isFirst isDoubled) second
        (inBody second isSecond isDoubledToo) isDoubled isDoubledToo

/-! ## Doubled definitions -/

/-- The doubling of a parameter text shows that its definition is doubled. -/
theorem normalFor_doubled {parameters : List Token} (isText : ParameterText parameters)
    {tokens : List Token} (alike : Alike tokens) :
    (normalFor (doubled parameters) (doubled tokens)).map Token.bare =
      (normalFor parameters tokens).map Token.bare := by
  rw [normalFor, if_pos (Definition.hasDoubled_doubled isText.hasParameter),
    Definition.map_bare_normalize_doubled alike, normalFor,
    Definition.hasDoubled_eq_false isText.isChain, if_neg (by simp)]

/-- A definition of which everything has been doubled is the same as without. -/
theorem Compiles.sameList {parameters body : List Token} {once twice : Definition}
    (isText : ParameterText parameters) (alike : Alike body)
    (compiles : Compiles parameters body once)
    (compilesDoubled : Compiles (doubled parameters) (doubled body) twice) :
    DefinitionItem.sameList twice.signature once.signature = true ∧
      DefinitionItem.sameList twice.body once.body = true := by
  constructor
  · rw [DefinitionItem.sameList_eq_true_iff, compilesDoubled.signature, compiles.signature,
      Definition.map_bare_signatureOf, Definition.map_bare_signatureOf,
      normalFor_doubled isText isText.alike]
  · rw [DefinitionItem.sameList_eq_true_iff, compilesDoubled.body, compiles.body,
      Definition.map_bare_bodyOf, Definition.map_bare_bodyOf, normalFor_doubled isText alike]

theorem braces_doubled (depth : Nat) (tokens : List Token) :
    Input.braces depth (doubled tokens) = Input.braces depth tokens := by
  induction tokens generalizing depth with
  | nil => rfl
  | cons token rest ih =>
      cases isDoubled : isParameter token with
      | true =>
          have category : token.category = .parameter := by
            simpa [isParameter] using isDoubled
          have other : ∀ behind, Input.braces depth (token :: behind) = Input.braces depth behind :=
            Input.braces_other (by simp [category]) (by simp [category]) depth
          rw [Definition.doubled_parameter isDoubled, other, other, other, ih]
      | false =>
          have split : ∀ rest : List Token, Input.braces depth (token :: rest) =
              (Input.braces depth [token]).bind (Input.braces · rest) :=
            fun rest => Input.braces_bind depth [token] rest
          rw [Definition.doubled_plain isDoubled, split rest, split (doubled rest)]
          simp only [ih]

end Engine

end TexTree
