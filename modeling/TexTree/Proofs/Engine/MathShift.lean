import TexTree.Proofs.Engine.Enclosing
import TexTree.Proofs.Engine.Session

/-!
# What a math shift does

A math shift opens a formula or closes one, and it always succeeds.  Which of the two it
does depends on the formulas that were opened by delimiters and not closed again, and on
nothing else: neither on the scopes that are open nor on whether formulas are being read.
So it opens a formula exactly if the innermost of those formulas is not the one that the
delimiter would close (`Engine.endsFormula`).

Text inside of a formula is the case in which this matters: in a box the scopes say that
no formula is being read, while the formula around the box still waits for its end.
-/

namespace TexTree

/-- The name of a node, and how it was invoked. -/
def Node.invoked (node : Node) : String × Mode := (node.name, node.mode)

namespace Engine

/-- The formula that a math shift stands for: one of its own if another math shift
follows. -/
def announced (engine : Engine) : String :=
  match (engine.input.next engine.scopes.categories).1 with
  | some next => if next.category = .mathShift then "displaymath" else "math"
  | none => "math"

/-- Whether the innermost formula that was opened by a delimiter is ended by a math
shift. -/
def endsFormula (engine : Engine) : Bool :=
  engine.isInMath "math" || engine.isInMath engine.announced

/-- A formula has been opened: its node is new, one scope is open that belongs to the
node, and what was open before is still open below. -/
structure OpensFormula (name : String) (before : Engine) (node : NodeId) (after : Engine) :
    Prop where
  new : node = before.document.size
  invoked : (after.document.node node).invoked = (name, .opening)
  frames : ∃ frame, after.scopes.frames = frame :: before.scopes.frames ∧
    frame.owner = some
      { node := some node, name, mode := .opening, level := Level.environment, math := some true }
  mathStack : after.mathStack = name :: before.mathStack
  mathMode : after.scopes.isMathMode = true

/-- A formula has been closed: its end is a new node, and all scopes are closed through
the innermost one that belongs to it. -/
structure ClosesFormula (before : Engine) (node : NodeId) (after : Engine) : Prop where
  new : node = before.document.size
  ended : ∃ name, (after.document.node node).invoked = (name, .closing) ∧
    before.mathStack = name :: after.mathStack ∧
    after.scopes = before.scopes.popOwner { node := none, name, mode := .closing } none

variable {engine before : Engine} {interpreter : Interpreter} {name : String}

theorem mathStack_of_isInMath (inside : engine.isInMath name = true) :
    ∃ rest, engine.mathStack = name :: rest := by
  unfold isInMath at inside
  cases stack : engine.mathStack with
  | nil => simp [stack] at inside
  | cons first rest =>
      rw [stack] at inside
      exact ⟨rest, by simpa using inside⟩

/-- A delimiter closes the innermost formula if this has the given name. -/
theorem runs_closeMath (isFormula : name ∈ Builtin.formulaNames) (token : Token)
    (inside : engine.isInMath name = true) :
    Runs (closeMath interpreter token name) engine fun node after =>
      ClosesFormula engine node after := by
  obtain ⟨rest, stack⟩ := mathStack_of_isInMath inside
  have isFirst : engine.mathStack.head? = some name := by rw [stack, List.head?_cons]
  refine (runs_closeByDelimiter isFormula isFirst token).mono ?_
  rintro _ _ ⟨rfl, rfl⟩
  refine ⟨rfl, name, ?_, ?_, rfl⟩
  · simp only [formulaClosed, closed, Document.node_create_self]
    rfl
  · simp only [formulaClosed, stack, List.drop_one, List.tail_cons]

/-- A delimiter opens a formula with the given name. -/
theorem runs_openMath (isFormula : name ∈ Builtin.formulaNames) (token : Token)
    (delimiter : String) :
    Runs (openMath interpreter token name delimiter) engine fun node after =>
      OpensFormula name engine node after := by
  have other := Builtin.ne_document_of_mem isFormula
  have isOwner : ownerOf (Builtin.enclosure name) .opening engine.document.size =
      { node := some engine.document.size, name, mode := .opening, level := Level.environment,
        math := some true } := by
    simp [ownerOf, Builtin.enclosure, ElementOf.environment, other, isFormula]
  have inner : (ownerOf (Builtin.enclosure name) .opening engine.document.size).level ≠
      Level.document := by
    rw [isOwner]
    exact Builtin.environment_ne_document
  have frames : (engine.scopesInside name).frames =
      ⟨some (ownerOf (Builtin.enclosure name) .opening engine.document.size),
        .ofList (Builtin.enclosure name).locals, .empty, engine.scopes.categories⟩ ::
          engine.scopes.frames := by
    rw [scopesInside, Scopes.push_of_inner inner]
    rfl
  refine (runs_openByDelimiter isFormula token delimiter).mono ?_
  rintro _ _ ⟨rfl, rfl⟩
  refine ⟨rfl, ?_, ⟨_, frames, congrArg some isOwner⟩, rfl, ?_⟩
  · simp only [formulaOpened, Document.node_create_self]
    rfl
  · change ((engine.scopesInside name).owners.findSome? FrameOwner.math).getD false = true
    rw [Scopes.owners, frames, isOwner]
    rfl

/-- A delimiter closes the formula that it announces if this is the innermost one, and
otherwise it opens that formula.  What has been read in the meantime does not matter. -/
theorem runs_delimit (engine : Engine) (token : Token) (isDisplay : Bool) (input : Input) :
    let name := if isDisplay then "displaymath" else "math"
    Runs (do
      if (← get).isInMath name then closeMath interpreter token name
      else openMath interpreter token name (if isDisplay then "$$" else "$"))
      { engine with input } fun node after =>
        (engine.isInMath name = true → ClosesFormula engine node after) ∧
          (engine.isInMath name = false → OpensFormula name engine node after) := by
  intro name
  have isFormula : name ∈ Builtin.formulaNames := by cases isDisplay <;> decide
  apply runs_get
  have same : isInMath { engine with input } name = engine.isInMath name := rfl
  cases inside : engine.isInMath name with
  | true =>
      rw [inside] at same
      simp only [same, if_true]
      refine (runs_closeMath isFormula token same).mono fun node after closes =>
        ⟨fun _ => ?_, nofun⟩
      exact ⟨closes.new, closes.ended⟩
  | false =>
      rw [inside] at same
      simp only [same, Bool.false_eq_true, if_false]
      refine (runs_openMath isFormula token _).mono fun node after opens => ⟨nofun, fun _ => ?_⟩
      exact ⟨opens.new, opens.invoked, opens.frames, opens.mathStack, opens.mathMode⟩

/-- A math shift always succeeds.  It closes a formula if the innermost one that was
opened by a delimiter and not closed again is ended by it, and otherwise it opens the one
that it announces. -/
theorem shift_opens (interpreter : Interpreter) (token : Token) (engine : Engine) :
    Runs (shiftMath interpreter token) engine fun node after =>
      (engine.endsFormula = true → ClosesFormula engine node after) ∧
        (engine.endsFormula = false → OpensFormula engine.announced engine node after) := by
  unfold shiftMath
  apply runs_get
  cases inside : engine.isInMath "math" with
  | true =>
      simp only [if_true]
      refine (runs_closeMath (by decide) token inside).mono fun node after closes =>
        ⟨fun _ => closes, ?_⟩
      simp [endsFormula, inside]
  | false =>
      simp only [Bool.false_eq_true, if_false]
      -- Looking at the next token changes nothing but the input.
      have looks : Runs nextRaw engine fun found after =>
          found = (engine.input.next engine.scopes.categories).1 ∧
            after = { engine with input := after.input } := runs_modifyGet ⟨rfl, rfl⟩
      refine looks.bind ?_
      rintro found after ⟨isFound, same⟩
      rw [same]
      unfold endsFormula announced
      rw [← isFound, inside, Bool.false_or]
      cases found with
      | none => exact runs_delimit engine token false _
      | some next =>
          by_cases isShift : next.category = .mathShift
          · simp only [isShift, if_true]
            exact runs_delimit engine token true _
          · simp only [isShift, if_false]
            exact runs_modify_bind (runs_delimit engine token false _)

set_option maxRecDepth 100000 in
/-- In a box inside of a formula no formula is being read, and yet a math shift closes the
formula around the box. -/
example :
    (document? (parseTextWithin 100 "$a\\hbox\x7b$b$\x7dc$"
      (fresh {} default ⟨2021, 3, 4⟩ .empty))).map (·.source Document.root) =
        some "$a$\\hbox\x7bb$$\x7dc" := by
  rw [fresh, Builtin.scopes_eq]
  decide +kernel

end Engine

end TexTree
