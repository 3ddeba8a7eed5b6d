import TexTree.Proofs.Engine.Assigning

/-!
# What computations uphold about the counters

Most of what an engine does leaves its counters alone, and the few commands that change
them do so in the same ways: they create a counter, add to one, or set one.  Whatever
these changes keep true of the counters, the whole interpreter keeps true, also if it
fails.

What holds of the counters is a property of engines that neither reading nor an assignment
disturbs.  What is shown here is that it does not depend on the document and on what is open.
-/

namespace TexTree

namespace Engine

/-- The counters of an engine have a property. -/
def WithCounters (holds : Counters → Prop) (engine : Engine) : Prop := holds engine.counters

@[grind =] theorem withCounters_iff {holds : Counters → Prop} {engine : Engine} :
    WithCounters holds engine ↔ holds engine.counters := Iff.rfl

/-- A computation leaves counters behind with the property that they had before, whether
it fails or not. -/
abbrev Upholds {α : Type} (holds : Counters → Prop) (computation : TexM α) : Prop :=
  Retains (WithCounters holds) computation

/-- Neither the input nor the meaning of a name has anything to do with the counters. -/
instance (holds : Counters → Prop) : Undisturbed (WithCounters holds) where
  input _ kept := kept
  log _ kept := kept
  expansions _ kept := kept
  relax kept _ _ := kept
  flags _ _ kept := kept
  registers _ kept := kept
  files _ kept := kept
  setCommand _ _ _ _ kept := kept
  letToken _ _ _ kept := kept
  categorize _ _ _ kept := kept

end Engine

/-- An interpreter that upholds what holds of the counters when it expands a command. -/
abbrev Interpreter.Reads (holds : Counters → Prop) (interpreter : Interpreter) : Prop :=
  interpreter.Retains (Engine.WithCounters holds)

namespace Engine

/-- The interpreter expands commands without changing the counters. -/
theorem reads_interpreter (holds : Counters → Prop) (fuel : Nat) :
    (Engine.interpreter fuel).Reads holds := retains_interpreter _ fuel

variable {holds : Counters → Prop}

/-! ## Meanings, scopes and the document -/

@[grind .] theorem upholds_setCommand (name : String) (command : Command) (isGlobal : Bool) :
    Upholds holds (setCommand name command isGlobal) := fun _ kept => kept

@[grind .] theorem upholds_lookup (name : String) : Upholds holds (lookup name) := by
  grind [lookup]

@[grind .] theorem upholds_modifyDocument (change : Document → Document) :
    Upholds holds (modifyDocument change) := fun _ kept => kept

@[grind .] theorem upholds_nodeOf (id : NodeId) : Upholds holds (nodeOf id) := fun _ kept => kept

@[grind .] theorem upholds_modifyNode (id : NodeId) (change : Node → Node) :
    Upholds holds (modifyNode id change) := fun _ kept => kept

@[grind .] theorem upholds_createElement (name : String) (level : Level) (mode : Mode) :
    Upholds holds (createElement name level mode) := fun _ kept => kept

@[grind .] theorem upholds_createFragment : Upholds holds createFragment := fun _ kept => kept

@[grind .] theorem upholds_setAttribute (id : NodeId) (name : String) (value : Value) :
    Upholds holds (setAttribute id name value) := fun _ kept => kept

@[grind .] theorem upholds_appendText (id : NodeId) (text : String) :
    Upholds holds (appendText id text) := fun _ kept => kept

@[grind .] theorem upholds_appendNode (parent child : NodeId) :
    Upholds holds (appendNode parent child) := fun _ kept => kept

@[grind .] theorem upholds_recordDepth (id : NodeId) : Upholds holds (recordDepth id) :=
  fun _ kept => kept

@[grind .] theorem upholds_setCurrentLabel (id : Option NodeId) :
    Upholds holds (setCurrentLabel id) := fun _ kept => kept

@[grind .] theorem upholds_pushScope (owner : Option FrameOwner)
    (locals : List (String × Command)) : Upholds holds (pushScope owner locals) :=
  fun _ kept => kept

@[grind .] theorem upholds_popOwner (owner : FrameOwner) : Upholds holds (popOwner owner) :=
  fun _ kept => kept

@[grind .] theorem upholds_pushEnvironment (name : String) :
    Upholds holds (pushEnvironment name) := fun _ kept => kept

@[grind .] theorem upholds_popEnvironment : Upholds holds popEnvironment := fun _ kept => kept

end Engine

end TexTree
