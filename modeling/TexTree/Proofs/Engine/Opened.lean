import TexTree.Proofs.Engine.Arriving
import TexTree.Proofs.Engine.Beginning
import TexTree.Proofs.Engine.Filling

/-!
# Nodes that arrive in a flow that mirrors the nesting

In a flow without breaks, declarations, items and headings, each node that arrives either
belongs into what is open (`Engine.Inner`) or closes the innermost of it (`Engine.Closes`).
-/

namespace TexTree

namespace Opening

variable {opening : Opening} {node next : Node}

/-- A node that opens something closes nothing. -/
theorem isCloser_of_form
    (known : ∀ name, opening = .environment name → name ∈ Builtin.environmentNames)
    (form : node.form = opening.form) : node.isCloser = false := by
  have name : node.name = opening.form.name := congrArg Form.name form
  have mode : node.mode = opening.form.mode := congrArg Form.mode form
  rw [Node.isCloser, Node.closesGroup, name, mode]
  cases opening with
  | group | formula | argument => rfl
  | environment opened =>
      have other : ∀ name ∈ Builtin.environmentNames, name ≠ "egroup" ∧ name ≠ "endgroup" := by
        decide
      obtain ⟨notGroup, notBegun⟩ := other opened (known opened rfl)
      simp [Opening.form, notGroup, notBegun]

/-- What closes an opening is a closer. -/
theorem isCloser_of_closer (notArgument : opening ≠ .argument)
    (form : node.form = opening.closer) : node.isCloser = true := by
  have name : node.name = opening.closer.name := congrArg Form.name form
  have mode : node.mode = opening.closer.mode := congrArg Form.mode form
  rw [Node.isCloser, Node.closesGroup, name, mode]
  cases opening with
  | argument => exact absurd rfl notArgument
  | group | environment _ | formula => rfl

/-- An open node takes up what does not leave it. -/
theorem reaction_takeUp (digest : node.digest = opening.digest)
    (level : node.level = opening.level) (notArgument : opening ≠ .argument)
    (isInner : next.level = Level.environment ∨ next.level = Level.command)
    (opens : next.isCloser = false) (deep : node.depth ≤ next.depth) :
    node.reaction next = .takeUp := by
  have within : next.isOutside node = false := by simpa [Node.isOutside] using deep
  have notClosing : next.mode ≠ .closing ∧ next.closesGroup = false := by
    simpa [Node.isCloser] using opens
  obtain ⟨notClosing, notGroup⟩ := notClosing
  unfold Node.reaction
  rw [digest]
  cases opening with
  | argument => exact absurd rfl notArgument
  | group =>
      rcases isInner with equal | equal
      all_goals simp [Opening.digest, equal, notClosing, notGroup, within, Level.environment,
        Level.command, Level.endSections]
  | environment _ | formula =>
      rcases isInner with equal | equal
      all_goals simp [Opening.digest, Opening.level, level, equal, notClosing, within,
        Level.environment, Level.command, Level.par]

/-- An open node ends at the node that closes it. -/
theorem reaction_finish (digest : node.digest = opening.digest)
    (form : node.form = opening.form) (level : node.level = opening.level)
    (notArgument : opening ≠ .argument) (closes : next.form = opening.closer)
    (sameLevel : next.level = opening.level) : node.reaction next = .finish := by
  have name : node.name = opening.form.name := congrArg Form.name form
  have nextName : next.name = opening.closer.name := congrArg Form.name closes
  have nextMode : next.mode = opening.closer.mode := congrArg Form.mode closes
  unfold Node.reaction
  rw [digest]
  cases opening with
  | argument => exact absurd rfl notArgument
  | group =>
      simp [Opening.digest, Opening.level, Opening.closer, sameLevel, nextName, Node.closesGroup,
        Level.command, Level.endSections]
  | environment _ | formula =>
      simp [Opening.digest, Opening.level, Opening.closer, Opening.form, level, sameLevel, name,
        nextName, nextMode, Level.environment, Level.par]

end Opening

/-- Every environment that is open in a flow is known, since the flow closes it. -/
theorem Flow.known {β : Type} {gauge : Gauge β} {loose : Bool} {stack : Openings β}
    {tokens : List Token} {content : List β} (flow : Flow gauge loose stack tokens content)
    {name : String} {after : List β} (isOpen : (.environment name, after) ∈ stack) :
    name ∈ Builtin.environmentNames := by
  induction flow with
  | done => cases isOpen
  | endEnvironment known next ih =>
      rcases List.mem_cons.mp isOpen with equal | outer
      · cases equal
        exact known
      · exact ih outer
  | closeGroup next ih | closeFormula next ih | argumentEnd next ih =>
      rcases List.mem_cons.mp isOpen with equal | outer
      · cases equal
      · exact ih outer
  | openGroup next ih | beginEnvironment _ next ih | openFormula _ _ next ih
  | command _ _ next ih | heading _ _ _ next ih =>
      exact ih (List.mem_cons_of_mem _ isOpen)
  | character _ next ih | bare _ _ next ih | item _ next ih => exact ih isOpen

namespace Engine

variable {β : Type} {gauge : Gauge β} {stack : Openings β} {frames : List Frame} {frame : Frame}
  {content inside after taken : List β} {size bound : Nat} {engine start : Engine}
  {interpreter : Interpreter} {id parent : NodeId} {opening : Opening}

/-- A node that belongs into what is open. -/
structure Inner (stack : Openings β) (node : Node) : Prop where
  opens : node.isCloser = false
  level : node.level = Level.environment ∨ node.level = Level.command
  deep : stack.length < node.depth

/-- A node has opened something inside of what was open before. -/
structure Opened (opening : Opening) (stack : Openings β) (node : Node) : Prop where
  form : node.form = opening.form
  digest : node.digest = opening.digest
  level : node.level = opening.level
  depth : node.depth = stack.length + 2
  notArgument : opening ≠ .argument

/-- A node closes an opening, and the flow goes on behind it. -/
structure Closes (gauge : Gauge β) (opening : Opening) (stack : Openings β)
    (frames : List Frame) (after : List β) (size : Nat) (id : NodeId) (engine : Engine) :
    Prop where
  form : (engine.document.node id).form = opening.closer
  level : (engine.document.node id).level = opening.level
  following : ∃ less, Following gauge false stack frames after less engine ∧ less < size

/-- A node has digested, and the flow goes on behind what it contributes. -/
inductive Taken (gauge : Gauge β) (stack : Openings β) (frames : List Frame) (id : NodeId) :
    List β → Nat → Engine → Prop where
  | intro {rest : List β} {size less : Nat} {engine : Engine}
      (level : (engine.document.node id).level ≠ Level.par) (empty : engine.buffer = [])
      (following : Following gauge false stack frames rest less engine) (shorter : less < size) :
      Taken gauge stack frames id (engine.document.gauged gauge id ++ rest) size engine

theorem Taken.weaken {more : Nat} (taken : Taken gauge stack frames id content size engine)
    (fewer : size ≤ more) : Taken gauge stack frames id content more engine := by
  cases taken with
  | intro level empty following shorter =>
      exact .intro level empty following (Nat.lt_of_lt_of_le shorter fewer)

/-- An interpreter that mirrors flows of up to so many tokens: their items arrive, and the
nodes take up what they enclose. -/
structure Mirrors (gauge : Gauge β) (interpreter : Interpreter) (bound : Nat) : Prop where
  nextItem : ∀ {stack : Openings β} {frames : List Frame} {content : List β} {size : Nat}
    {engine : Engine}, size ≤ bound → engine.Steady →
    Following gauge false stack frames content size engine →
    Runs (interpreter.run .nextItem) engine (Arrives gauge false stack frames content size)
  digest : ∀ {stack : Openings β} {frames : List Frame} {content : List β} {size : Nat}
    {engine : Engine} {id : NodeId}, size ≤ bound → engine.Steady → engine.document.Ready id →
    Arrives gauge false stack frames content size (some (.node id)) engine →
    (engine.document.node id).isCloser = false →
    Runs (interpreter.run (.digest id)) engine fun _ => Taken gauge stack frames id content size

/-! ## Nodes that arrive -/

namespace Opened

variable {node next : Node}

/-- What opens something digests. -/
theorem takes (opened : Opened opening stack node) : node.digest ≠ .nothing := by
  rw [opened.digest]
  cases opening with
  | argument => exact absurd rfl opened.notArgument
  | group | environment _ | formula => simp [Opening.digest]

/-- A node that opens something belongs into what was open before. -/
theorem inner (opened : Opened opening stack node)
    (known : ∀ name, opening = .environment name → name ∈ Builtin.environmentNames) :
    Inner stack node := by
  refine ⟨Opening.isCloser_of_form known opened.form, ?_, ?_⟩
  · rw [opened.level]
    cases opening with
    | group | argument => exact .inr rfl
    | environment _ | formula => exact .inl rfl
  · rw [opened.depth]
    omega

/-- What belongs into an opening is taken up by the node that opened it. -/
theorem reaction_takeUp (opened : Opened opening stack node)
    (inner : Inner ((opening, after) :: stack) next) : node.reaction next = .takeUp :=
  opening.reaction_takeUp opened.digest opened.level opened.notArgument inner.level inner.opens
    (opened.depth.trans_le inner.deep)

/-- Whatever opens something is no paragraph break. -/
theorem level_ne_par (opened : Opened opening stack node) : node.level ≠ Level.par := by
  rw [opened.level]
  cases opening <;> simp [Opening.level, Level.environment, Level.command, Level.par]

end Opened

/-- The node of a flow belongs into what is open, or closes it. -/
theorem Arrives.inner_or_closes
    (arrives : Arrives gauge false stack frames content size (some (.node id)) engine) :
    Inner stack (engine.document.node id) ∨
      ∃ opening after outer frame outside, stack = (opening, after) :: outer ∧
        frames = frame :: outside ∧ content = [] ∧ opening ≠ .argument ∧
        Closes gauge opening outer outside after size id engine := by
  cases arrives with
  | @opened _ _ _ _ _ _ _ _ _ opening _ form digest level depth _ delivered notArgument _ =>
      obtain ⟨tokens, _, flow, _⟩ := delivered.following.flow
      have opened : Opened opening stack (engine.document.node id) :=
        ⟨delivered.form.trans form, delivered.digest.trans digest, delivered.level.trans level,
          delivered.depth.trans depth, notArgument⟩
      refine .inl (opened.inner ?_)
      rintro name rfl
      exact flow.known List.mem_cons_self
  | closed form level notArgument delivered shorter =>
      exact .inr ⟨_, _, _, _, _, rfl, rfl, rfl, notArgument, delivered.form.trans form,
        delivered.level.trans level, _, delivered.following, shorter⟩
  | @enclosed _ _ _ _ _ _ _ _ name _ known form _ level depth delivered _ =>
      have isForm := delivered.form.trans form
      have isName : (engine.document.node id).name = name := congrArg Form.name isForm
      have isMode : (engine.document.node id).mode = .plain := congrArg Form.mode isForm
      have other : ∀ name ∈ Builtin.selfNames, name ≠ "egroup" ∧ name ≠ "endgroup" := by decide
      obtain ⟨notGroup, notBegun⟩ := other name known
      refine .inl ⟨?_, .inr (delivered.level.trans level), ?_⟩
      · simp [Node.isCloser, Node.closesGroup, isMode, isName, notGroup, notBegun]
      · rw [delivered.depth.trans depth]
        exact Nat.lt_succ_self _
  | passed isLoose => cases isLoose

end Engine

end TexTree
