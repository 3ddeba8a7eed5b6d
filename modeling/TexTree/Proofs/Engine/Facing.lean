import TexTree.Proofs.Engine.Running
import TexTree.Proofs.Input.Grouping
import TexTree.Proofs.Input.Seal

/-!
# What an engine faces

For much of what is read only the scopes matter and the tokens ahead, whatever else the engine
holds (`Engine.Faces`).  In front of a group, its tokens are read and nothing behind it.
-/

namespace TexTree

namespace Input

variable {table : CategoryTable} {input : Input} {stop : Token → Bool}

/-- The tokens through the first one that the condition accepts. -/
theorem throughToken_of_ahead (positionless : ∀ token, stop token.bare = stop token)
    {tokens behind : List Token} {last : Token} (passed : ∀ token ∈ tokens, stop token = false)
    (stops : stop last = true)
    (left : input.ahead table = (tokens ++ last :: behind).map Token.bare) :
    ∃ found final rest, throughToken table stop input = (found, some final, rest) ∧
      found.map Token.bare = tokens.map Token.bare ∧
      rest.ahead table = behind.map Token.bare := by
  induction tokens generalizing input with
  | nil =>
      obtain ⟨token, rest, found, same, left⟩ := next_of_ahead left
      have accepted : stop token = true := by rw [← positionless, same, positionless, stops]
      exact ⟨[], token, rest, by rw [throughToken_next found, if_pos accepted], rfl, left⟩
  | cons first tokens ih =>
      obtain ⟨token, rest, found, same, left⟩ := next_of_ahead left
      rw [List.forall_mem_cons] at passed
      have notAccepted : stop token = false := by
        rw [← positionless, same, positionless, passed.1]
      obtain ⟨read, final, rest', isRead, sameRead, left⟩ := ih passed.2 left
      refine ⟨token :: read, final, rest', ?_, ?_, left⟩
      · rw [throughToken_next found, notAccepted, isRead]
        rfl
      · rw [List.map_cons, same, sameRead, List.map_cons]

end Input

namespace Engine

variable {engine : Engine} {scopes : Scopes} {tokens behind : List Token}

/-- The engine has the given scopes, and the given tokens are ahead. -/
structure Faces (scopes : Scopes) (tokens : List Token) (engine : Engine) : Prop where
  scopes_eq : engine.scopes = scopes
  ahead : engine.input.ahead scopes.categories = tokens.map Token.bare

namespace Faces

theorem runs_reading (faces : Faces scopes tokens engine) {α : Type}
    {read : CategoryTable → Input → α × Input} {value : α} {rest : Input}
    (found : read scopes.categories engine.input = (value, rest))
    (left : rest.ahead scopes.categories = behind.map Token.bare) :
    Runs (reading read) engine fun result after => result = value ∧ Faces scopes behind after := by
  obtain ⟨rfl, -⟩ := faces
  refine (Engine.runs_reading found left).mono ?_
  rintro _ after ⟨rfl, goesOn⟩
  exact ⟨rfl, by rw [goesOn.unchanged], goesOn.ahead⟩

theorem runs_nextRaw {first : Token} (faces : Faces scopes (first :: tokens) engine) :
    Runs nextRaw engine fun result after =>
      (∃ token, result = some token ∧ token.bare = first.bare) ∧ Faces scopes tokens after := by
  obtain ⟨token, rest, found, same, left⟩ := Input.next_of_ahead faces.ahead
  refine (faces.runs_reading found left).mono ?_
  rintro _ after ⟨rfl, faces⟩
  exact ⟨⟨token, rfl, same⟩, faces⟩

theorem pushTokens (faces : Faces scopes tokens engine) (added : List Token) :
    Faces scopes (added ++ tokens) { engine with input := engine.input.pushTokens added } := by
  refine ⟨faces.scopes_eq, ?_⟩
  rw [Input.ahead_pushTokens, faces.ahead, List.map_append]

end Faces

/-- A group is read up to the brace that closes it. -/
theorem GoesOn.runs_readGroup {start : Engine} {inside : List Token} {closing : Token}
    (goesOn : GoesOn engine (inside ++ closing :: behind) start)
    (balanced : Input.braces 0 inside = some 0) (closes : closing.category = .endGroup) :
    Runs readGroup start fun result after =>
      result.map Token.bare = inside.map Token.bare ∧ GoesOn engine behind after := by
  have ahead : start.input.ahead engine.scopes.categories =
      inside.map Token.bare ++ closing.bare :: behind.map Token.bare := by
    simpa using goesOn.ahead
  obtain ⟨tokens, rest, isGroup, same, left⟩ :=
    Input.group_of_ahead ahead closes (by rwa [Input.braces_bare])
  unfold readGroup readingOrFail
  refine (goesOn.runs_reading (show _ = (Except.ok tokens, rest) from ?_) left).bind ?_
  · simp only [isGroup]
  rintro _ after ⟨rfl, goesOn⟩
  exact runs_pure ⟨same, goesOn⟩

/-- The engine reads the given tokens next. -/
def facing (engine : Engine) (tokens : List Token) : Engine :=
  { engine with input := engine.input.pushTokens tokens }

theorem faces_facing (engine : Engine) (tokens : List Token) :
    ∃ behind, behind.map Token.bare = engine.input.ahead engine.scopes.categories ∧
      Faces engine.scopes (tokens ++ behind) (engine.facing tokens) := by
  refine ⟨(engine.input.drain engine.scopes.categories).1, rfl, rfl, ?_⟩
  rw [facing, Input.ahead_pushTokens, List.map_append]
  rfl

theorem goesOn_facing (engine : Engine) (tokens : List Token) :
    ∃ behind, GoesOn engine (tokens ++ behind) (engine.facing tokens) := by
  obtain ⟨behind, -, faces⟩ := faces_facing engine tokens
  exact ⟨behind, rfl, faces.ahead⟩

end Engine

end TexTree
