import TexTree.Proofs.Engine.Assigning

/-!
# Quiet computations

Most of what an engine does while it reads tokens, expands commands, evaluates
numbers and makes assignments changes neither the document nor what belongs to
it.  Such a computation is called quiet.  It may consume input, bind names,
change counters and registers and write to files, but the document, the nodes
that were read too early, the references and the open environments and formulas
stay as they are, and regular scopes stay regular with the same owners.

Quietness is stated as a relation to an earlier engine.  It is not disturbed by assignments,
and not by the commands that change counters.
-/

namespace TexTree

namespace Scopes

/-- Scopes that belong to the same elements. -/
def SameOwners (before after : Scopes) : Prop :=
  after.inner.map Frame.owner = before.inner.map Frame.owner ∧
    after.base.owner = before.base.owner

namespace SameOwners

variable {before scopes : Scopes}

theorem modifyTop (same : before.SameOwners scopes) (change : Frame → Frame)
    (owners : ∀ frame, (change frame).owner = frame.owner) :
    before.SameOwners (scopes.modifyTop change) := by
  unfold Scopes.modifyTop
  split
  · exact ⟨same.1, (owners _).trans same.2⟩
  · next equal =>
      refine ⟨?_, same.2⟩
      rw [← same.1, equal, List.map_cons, List.map_cons, owners]

theorem mapInner (same : before.SameOwners scopes) (change baseChange : Frame → Frame)
    (owners : ∀ frame, (change frame).owner = frame.owner)
    (baseOwner : ∀ frame, (baseChange frame).owner = frame.owner) :
    before.SameOwners ⟨scopes.inner.map change, baseChange scopes.base⟩ := by
  refine ⟨?_, (baseOwner _).trans same.2⟩
  rw [← same.1, List.map_map]
  exact List.map_congr_left fun frame _ => owners frame

theorem setCommand (same : before.SameOwners scopes) (name : String) (command : Command)
    (isGlobal : Bool) : before.SameOwners (scopes.setCommand name command isGlobal) := by
  unfold Scopes.setCommand
  split
  · exact same.mapInner (·.forget name) (·.bind name command) (fun _ => rfl) fun _ => rfl
  · exact same.modifyTop (·.bind name command) fun _ => rfl

theorem setAlias (same : before.SameOwners scopes) (name : String) (token : Token)
    (isGlobal : Bool) : before.SameOwners (scopes.setAlias name token isGlobal) := by
  unfold Scopes.setAlias
  split
  · exact same.mapInner (·.forget name) (·.bindAlias name token) (fun _ => rfl) fun _ => rfl
  · exact same.modifyTop (·.bindAlias name token) fun _ => rfl

theorem letToken (same : before.SameOwners scopes) (name : String) (source : Token)
    (isGlobal : Bool) : before.SameOwners (scopes.letToken name source isGlobal) := by
  unfold Scopes.letToken
  split
  · split
    · exact same.setAlias name _ isGlobal
    · exact same.setCommand name _ isGlobal
  · exact same.setAlias name _ isGlobal

theorem categorize (same : before.SameOwners scopes) (character : Char) (category : Category)
    (isGlobal : Bool) : before.SameOwners (scopes.categorize character category isGlobal) := by
  unfold Scopes.categorize
  split
  · exact same.mapInner (·.categorize character category) (·.categorize character category)
      (fun _ => rfl) fun _ => rfl
  · exact same.modifyTop (·.categorize character category) fun _ => rfl

end SameOwners

end Scopes

namespace Engine

/-- The parts of an engine that quiet computations leave alone. -/
def settled (engine : Engine) : Engine :=
  { engine with
    input := .empty, scopes := .initial, counters := .empty, registers := .empty
    globalNext := false, protectedNext := false, expansions := 0, files := default, log := #[] }

/-- An engine came from another one without touching the document and what belongs
to it. -/
def Quiet (before after : Engine) : Prop :=
  after.settled = before.settled ∧ before.scopes.SameOwners after.scopes ∧
    (before.scopes.Regular → after.scopes.Regular)

@[simp, grind .] theorem Quiet.refl (engine : Engine) : engine.Quiet engine :=
  ⟨rfl, ⟨rfl, rfl⟩, fun regular => regular⟩

variable {before : Engine}

/-! ## Meanings, counters and registers -/

namespace Quiet

variable {engine : Engine}

theorem setCommand (quiet : before.Quiet engine) (name : String) {command : Command}
    (isRegular : before.scopes.Regular → command.Regular) (isGlobal : Bool) :
    before.Quiet { engine with scopes := engine.scopes.setCommand name command isGlobal } :=
  ⟨quiet.1, quiet.2.1.setCommand name command isGlobal,
    fun regular => (quiet.2.2 regular).setCommand name (isRegular regular) isGlobal⟩

theorem letToken (quiet : before.Quiet engine) (name : String) (source : Token)
    (isGlobal : Bool) :
    before.Quiet { engine with scopes := engine.scopes.letToken name source isGlobal } :=
  ⟨quiet.1, quiet.2.1.letToken name source isGlobal,
    fun regular => (quiet.2.2 regular).letToken name source isGlobal⟩

theorem categorize (quiet : before.Quiet engine) (character : Char) (category : Category)
    (isGlobal : Bool) :
    before.Quiet
      { engine with scopes := engine.scopes.categorize character category isGlobal } :=
  ⟨quiet.1, quiet.2.1.categorize character category isGlobal,
    fun regular => (quiet.2.2 regular).categorize character category isGlobal⟩

theorem bindPlaceholder (quiet : before.Quiet engine) (name : String) :
    before.Quiet { engine with scopes := engine.scopes.bindPlaceholder name } :=
  ⟨quiet.1, quiet.2.1, fun regular => (quiet.2.2 regular).bindPlaceholder name⟩

theorem setTemplate (quiet : before.Quiet engine) (name : String) (template : Template) :
    before.Quiet (engine.setTemplate name template) :=
  quiet.setCommand _ (by simp) true

@[grind ←] theorem createCounter (quiet : before.Quiet engine) (name : String)
    (resetBy : Option String) (value : Int) :
    before.Quiet (engine.createCounter name resetBy value) := by
  unfold Engine.createCounter
  split
  · exact quiet
  · exact quiet.setCommand _ (by simp) true

end Quiet

instance (before : Engine) : Undisturbed before.Quiet where
  input _ quiet := quiet
  log _ quiet := quiet
  expansions _ quiet := quiet
  relax quiet _ found :=
    quiet.setCommand _ (fun regular => (quiet.2.2 regular).command? found) false
  flags _ _ quiet := quiet
  registers _ quiet := quiet
  files _ quiet := quiet
  setCommand name _ isGlobal isRegular quiet := quiet.setCommand name (fun _ => isRegular) isGlobal
  letToken name source isGlobal quiet := quiet.letToken name source isGlobal
  categorize character category isGlobal quiet := quiet.categorize character category isGlobal

theorem Quiet.createRegister {engine : Engine} (quiet : before.Quiet engine) (name : String)
    (value : Quantity) : before.Quiet (engine.createRegister name value) :=
  Undisturbed.createRegister quiet name value

/-! ## Counters -/

section Counters

variable {interpreter : Interpreter}

@[grind .] theorem quiet_changeCounters (change : Counters → Option Counters) :
    Retains before.Quiet (changeCounters change) := by
  intro engine quiet
  simp only [changeCounters, modifyGet_run]
  split
  · exact quiet
  · exact quiet

theorem quiet_createNamedCounter : Retains before.Quiet createNamedCounter := by
  unfold createNamedCounter
  refine retains_readName.bind fun name => retains_readBracketedText.bind fun superior => ?_
  refine retains_get.bind fun engine => ?_
  split
  · exact retains_warn _ _
  · refine (retains_checkSuperior _ _).bind fun _ => ?_
    exact retains_modify fun _ quiet => quiet.createCounter _ _ _

theorem quiet_setCounter (reads : interpreter.Retains before.Quiet) (token : Token) :
    Retains before.Quiet (setCounter interpreter token) := by
  grind [setCounter]

theorem quiet_stepCounter : Retains before.Quiet stepCounter := by
  grind [stepCounter]

end Counters

end Engine

open Engine

/-- An interpreter that expands commands quietly. -/
def Interpreter.Calm (interpreter : Interpreter) : Prop :=
  ∀ before : Engine, interpreter.Retains before.Quiet

/-- The interpreter expands commands quietly. -/
theorem Engine.calm_interpreter (fuel : Nat) : (Engine.interpreter fuel).Calm :=
  fun before => retains_interpreter before.Quiet fuel

end TexTree
