import TexTree.Proofs.Engine.Outcome
import TexTree.Proofs.Input.Stream

/-!
# Computations that succeed

`Runs` states that a computation started with an engine succeeds, and what is then
known about its result and the engine behind it.  Its rules follow the ways in
which computations are put together, as those of `Sat` do; what `Sat` knows about
successful computations can be added at any point (`Runs.sat`).
-/

namespace TexTree.Engine

/-- A computation succeeds, and its result is as stated. -/
def Runs {α : Type} (computation : TexM α) (engine : Engine) (post : α → Engine → Prop) : Prop :=
  ∃ value after, computation engine = .ok value after ∧ post value after

variable {α β : Type} {engine : Engine}

theorem Runs.mono {computation : TexM α} {post post' : α → Engine → Prop}
    (runs : Runs computation engine post)
    (weaken : ∀ value after, post value after → post' value after) :
    Runs computation engine post' := by
  obtain ⟨value, after, equal, holds⟩ := runs
  exact ⟨value, after, equal, weaken value after holds⟩

/-- What is known about all successful outcomes is known about this one. -/
theorem Runs.sat {computation : TexM α} {post post' : α → Engine → Prop}
    (runs : Runs computation engine post) (sat : Sat computation engine post') :
    Runs computation engine fun value after => post value after ∧ post' value after := by
  obtain ⟨value, after, equal, holds⟩ := runs
  exact ⟨value, after, equal, holds, sat.ok equal⟩

/-- A computation behind another one starts where that one ended. -/
theorem Runs.bind {first : TexM α} {second : α → TexM β} {middle : α → Engine → Prop}
    {post : β → Engine → Prop} (runs : Runs first engine middle)
    (next : ∀ value after, middle value after → Runs (second value) after post) :
    Runs (first >>= second) engine post := by
  obtain ⟨value, between, equal, holds⟩ := runs
  obtain ⟨result, after, equal', holds'⟩ := next value between holds
  refine ⟨result, after, ?_, holds'⟩
  simp only [Bind.bind, EStateM.bind, equal, equal']

theorem runs_pure {value : α} {post : α → Engine → Prop} (holds : post value engine) :
    Runs (pure value) engine post := ⟨value, engine, rfl, holds⟩

theorem Runs.map {change : α → β} {computation : TexM α} {post : β → Engine → Prop}
    (runs : Runs computation engine fun value after => post (change value) after) :
    Runs (change <$> computation) engine post := by
  obtain ⟨value, after, equal, holds⟩ := runs
  refine ⟨change value, after, ?_, holds⟩
  simp only [Functor.map, EStateM.map, equal]

theorem runs_get {next : Engine → TexM β} {post : β → Engine → Prop}
    (runs : Runs (next engine) engine post) : Runs (get >>= next) engine post := runs

theorem runs_modify {change : Engine → Engine} {post : PUnit → Engine → Prop}
    (holds : post ⟨⟩ (change engine)) : Runs (modify change) engine post :=
  ⟨⟨⟩, change engine, rfl, holds⟩

/-- A computation behind a change of the engine. -/
theorem runs_modify_bind {change : Engine → Engine} {next : PUnit → TexM β}
    {post : β → Engine → Prop} (runs : Runs (next ⟨⟩) (change engine) post) :
    Runs (modify change >>= next) engine post := runs

theorem runs_modifyGet {change : Engine → α × Engine} {post : α → Engine → Prop}
    (holds : post (change engine).1 (change engine).2) :
    Runs (modifyGet change) engine post :=
  ⟨(change engine).1, (change engine).2, rfl, holds⟩

theorem runs_nodeOf {id : NodeId} {next : Node → TexM β} {post : β → Engine → Prop}
    (runs : Runs (next (engine.document.node id)) engine post) :
    Runs (nodeOf id >>= next) engine post := runs

/-- A change behind a successful computation. -/
theorem Runs.ensuring {computation : TexM α} {change : Engine → Engine}
    {post : α → Engine → Prop}
    (runs : Runs computation engine fun value after => post value (change after)) :
    Runs (ensuring computation change) engine post := by
  obtain ⟨value, after, equal, holds⟩ := runs
  refine ⟨value, change after, ?_, holds⟩
  simp only [Engine.ensuring, equal]

/-! ## Reading -/

/-- Only the input has changed, and these tokens are left of it. -/
structure GoesOn (engine : Engine) (tokens : List Token) (after : Engine) : Prop where
  unchanged : after = { engine with input := after.input }
  ahead : after.input.ahead engine.scopes.categories = tokens.map Token.bare

/-- Reading changes nothing but the input. -/
theorem runs_reading {read : CategoryTable → Input → α × Input} {value : α} {rest : Input}
    {behind : List Token} (found : read engine.scopes.categories engine.input = (value, rest))
    (left : rest.ahead engine.scopes.categories = behind.map Token.bare) :
    Runs (reading read) engine fun result after => result = value ∧ GoesOn engine behind after := by
  refine runs_modifyGet ?_
  dsimp only
  rw [found]
  exact ⟨rfl, rfl, left⟩

namespace GoesOn

variable {start : Engine} {tokens : List Token}

theorem exists_input (goesOn : GoesOn engine tokens start) :
    ∃ input : Input, start = { engine with input } ∧
      input.ahead engine.scopes.categories = tokens.map Token.bare :=
  ⟨start.input, goesOn.unchanged, goesOn.ahead⟩

theorem runs_reading (goesOn : GoesOn engine tokens start)
    {read : CategoryTable → Input → α × Input} {value : α} {rest : Input} {behind : List Token}
    (found : read engine.scopes.categories start.input = (value, rest))
    (left : rest.ahead engine.scopes.categories = behind.map Token.bare) :
    Runs (reading read) start fun result after => result = value ∧ GoesOn engine behind after := by
  obtain ⟨input, rfl, -⟩ := goesOn.exists_input
  refine runs_modifyGet ?_
  dsimp only at found ⊢
  rw [found]
  exact ⟨rfl, rfl, left⟩

theorem runs_nextRaw {first : Token} (goesOn : GoesOn engine (first :: tokens) start) :
    Runs nextRaw start fun next after =>
      (∃ token, next = some token ∧ token.bare = first.bare) ∧ GoesOn engine tokens after := by
  obtain ⟨token, rest, found, same, left⟩ := Input.next_of_ahead goesOn.ahead
  refine (goesOn.runs_reading found left).mono ?_
  rintro _ after ⟨rfl, goesOn⟩
  exact ⟨⟨token, rfl, same⟩, goesOn⟩

/-- Tokens that are pushed come before those that are left. -/
theorem runs_pushTokens (goesOn : GoesOn engine tokens start) {pushed given : List Token}
    (same : pushed.map Token.bare = given.map Token.bare) :
    Runs (pushTokens pushed) start fun _ after => GoesOn engine (given ++ tokens) after := by
  obtain ⟨input, rfl, ahead⟩ := goesOn.exists_input
  refine runs_modify ⟨rfl, ?_⟩
  rw [Input.ahead_pushTokens, ahead, same, List.map_append]

end GoesOn

end TexTree.Engine
