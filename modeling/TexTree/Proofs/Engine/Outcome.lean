import TexTree.Proofs.Engine.Quiet

/-!
# Outcomes of computations

A computation either succeeds, and then something is known about its result and
the engine that it leaves behind, or it fails.  A failure drops the document, so
that all that matters about the engine is that it can go on with another source:
the elements that it knows are still regular.

`Sat` states this for one computation started with one engine.  Its rules follow
the ways in which computations are put together.
-/

namespace TexTree.Engine

/-- All elements that the engine knows are regular. -/
structure Sane (engine : Engine) : Prop where
  scopes : engine.scopes.Regular
  libraries : ∀ name elements, engine.libraries.get? name = some elements →
    ∀ element ∈ elements, Command.Regular (.element element)

/-- A computation leaves a sane engine behind, and if it succeeds, its result is as
stated. -/
def Sat {α : Type} (computation : TexM α) (engine : Engine) (post : α → Engine → Prop) : Prop :=
  match computation engine with
  | .ok value after => post value after
  | .error _ after => after.Sane

variable {α β : Type} {engine : Engine}

theorem sat_bind {first : TexM α} {second : α → TexM β} {post : β → Engine → Prop} :
    Sat (first >>= second) engine post ↔
      Sat first engine fun value after => Sat (second value) after post := by
  unfold Sat
  simp only [bind, EStateM.bind]
  cases first engine <;> rfl

theorem sat_pure {value : α} {post : α → Engine → Prop} :
    Sat (pure value) engine post ↔ post value engine := Iff.rfl

theorem sat_map {change : α → β} {computation : TexM α} {post : β → Engine → Prop} :
    Sat (change <$> computation) engine post ↔
      Sat computation engine fun value after => post (change value) after := by
  unfold Sat
  simp only [Functor.map, EStateM.map]
  cases computation engine <;> rfl

theorem sat_get {post : Engine → Engine → Prop} : Sat get engine post ↔ post engine engine :=
  Iff.rfl

theorem sat_set {other : Engine} {post : PUnit → Engine → Prop} :
    Sat (set other) engine post ↔ post ⟨⟩ other := Iff.rfl

theorem sat_modify {change : Engine → Engine} {post : PUnit → Engine → Prop} :
    Sat (modify change) engine post ↔ post ⟨⟩ (change engine) := Iff.rfl

theorem sat_modifyGet {change : Engine → α × Engine} {post : α → Engine → Prop} :
    Sat (modifyGet change) engine post ↔ post (change engine).1 (change engine).2 := Iff.rfl

theorem sat_nodeOf {id : NodeId} {post : Node → Engine → Prop} :
    Sat (nodeOf id) engine post ↔ post (engine.document.node id) engine := Iff.rfl

theorem sat_fail {fault : Fault} {post : α → Engine → Prop} :
    Sat (fail fault) engine post ↔ engine.Sane := Iff.rfl

theorem Sat.mono {computation : TexM α} {post post' : α → Engine → Prop}
    (sat : Sat computation engine post)
    (weaken : ∀ value after, post value after → post' value after) :
    Sat computation engine post' := by
  unfold Sat at sat ⊢
  cases equal : computation engine with
  | ok value after =>
      rw [equal] at sat
      exact weaken value after sat
  | error error after =>
      rw [equal] at sat
      exact sat

/-- What is known about a computation that succeeds. -/
theorem Sat.ok {computation : TexM α} {post : α → Engine → Prop}
    (sat : Sat computation engine post) {value : α} {after : Engine}
    (equal : computation engine = .ok value after) : post value after := by
  unfold Sat at sat
  rw [equal] at sat
  exact sat

/-- What is known about a computation that fails. -/
theorem Sat.error {computation : TexM α} {post : α → Engine → Prop}
    (sat : Sat computation engine post) {error : TexError} {after : Engine}
    (equal : computation engine = .error error after) : after.Sane := by
  unfold Sat at sat
  rw [equal] at sat
  exact sat

/-- A computation behind another one starts where that one ended. -/
theorem Sat.bind {first : TexM α} {second : α → TexM β} {middle : α → Engine → Prop}
    {post : β → Engine → Prop} (sat : Sat first engine middle)
    (next : ∀ value after, middle value after → Sat (second value) after post) :
    Sat (first >>= second) engine post :=
  sat_bind.mpr (sat.mono next)

/-- A change that is made in any case has to keep engines sane. -/
theorem Sat.ensuring {computation : TexM α} {change : Engine → Engine}
    {post : α → Engine → Prop}
    (sat : Sat computation engine fun value after => post value (change after))
    (sane : ∀ after : Engine, after.Sane → (change after).Sane) :
    Sat (ensuring computation change) engine post := by
  unfold Sat Engine.ensuring at *
  cases equal : computation engine with
  | ok value after =>
      simp only [equal] at sat ⊢
      exact sat
  | error error after =>
      simp only [equal] at sat ⊢
      exact sane after sat

/-! ## Quiet computations -/

theorem Quiet.sane {before after : Engine} (quiet : before.Quiet after) (sane : before.Sane) :
    after.Sane := by
  refine ⟨quiet.2.2 sane.scopes, ?_⟩
  have same := congrArg Engine.libraries quiet.1
  change after.libraries = before.libraries at same
  rw [same]
  exact sane.libraries

theorem Quiet.document {before after : Engine} (quiet : before.Quiet after) :
    after.document = before.document := by
  have same := congrArg Engine.document quiet.1
  exact same

theorem Quiet.buffer {before after : Engine} (quiet : before.Quiet after) :
    after.buffer = before.buffer := by
  have same := congrArg Engine.buffer quiet.1
  exact same

/-- The outcome of a quiet computation. -/
theorem Sat.quiet {computation : TexM α} (sane : engine.Sane)
    (quiet : Retains engine.Quiet computation) :
    Sat computation engine fun _ after => engine.Quiet after := by
  have result := quiet engine (.refl engine)
  unfold Sat
  cases equal : computation engine with
  | ok value after =>
      rw [equal] at result
      exact result
  | error error after =>
      rw [equal] at result
      exact Quiet.sane result sane

-- From here on, outcomes are reached by the rules above and never by evaluation.
attribute [irreducible] Sat

end TexTree.Engine
