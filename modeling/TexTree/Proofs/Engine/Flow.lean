import TexTree.Proofs.Engine.Items

/-!
# The flow of plain documents

The tokens that are ahead in a plain document close everything that is open, from the
inside outwards.  What they contribute to a gauge is known for each level: up to the
next thing that is closed, behind it up to the one after that, and so on (`Flow`).

Each item that is produced goes a step further in the flow (`Arrives`).  Whatever digests
the items can therefore be described by what it makes of the contributions.
-/

namespace TexTree

/-- What is open around the place that is read. -/
inductive Opening where
  | group
  | environment (name : String)
  | formula
  /-- The argument of a command, up to the marker behind it. -/
  | argument
  deriving DecidableEq, Repr

namespace Opening

/-- The form of the node that opens. -/
def form : Opening → Form
  | .group => ⟨"bgroup", .plain, .none, ""⟩
  | .environment name => ⟨name, .opening, .none, ""⟩
  | .formula => ⟨"math", .opening, .none, "$"⟩
  | .argument => ⟨"", .plain, .none, ""⟩

/-- The form of the node that closes. -/
def closer : Opening → Form
  | .group => ⟨"egroup", .plain, .none, ""⟩
  | .environment name => ⟨name, .closing, .none, ""⟩
  | .formula => ⟨"math", .closing, .none, ""⟩
  | .argument => ⟨"", .plain, .none, ""⟩

/-- The level of both nodes. -/
def level : Opening → Level
  | .environment _ | .formula => Level.environment
  | .group | .argument => Level.command

/-- The rule of digestion of the node that opens. -/
def digest : Opening → Digest
  | .environment _ | .formula => .environment
  | .group => .group
  | .argument => .nothing

/-- A frame that is open. -/
def Fits : Opening → Frame → Prop
  | .group, frame => frame.owner = none
  | .environment name, frame => Engine.OpenedBy name frame ∧
      (name = "itemize" → frame.commands = .ofList [("item", .element Builtin.item)])
  | .formula, frame => Engine.OpenedBy "math" frame
  | .argument, _ => True

end Opening

/-- The form of a command whose argument is its content. -/
def Form.enclosing (name : String) : Form := ⟨name, .plain, .braced, ""⟩

namespace Token

/-- A character that stands for itself.  It is not a bracket, so that it does not begin
an optional argument. -/
structure Plain (token : Token) : Prop where
  category : token.category = .letter ∨ token.category = .other ∨ token.category = .space
  space : token.category = .space → token.text = " "
  bracket : token.text ≠ "["

/-- Such a character is no marker. -/
theorem Plain.ne_endOfList {token : Token} (plain : token.Plain) :
    token.category ≠ .endOfList := by
  rcases plain.category with isKind | isKind | isKind
  all_goals simp [isKind]

/-- The marker behind an argument. -/
def argumentEnd : Token := .endOfList "arg"

/-- The delimiter of a formula. -/
def mathShift : Token := .ofChar '$' .mathShift

end Token

/-- What is open, the innermost first, with what is contributed behind it. -/
abbrev Openings (β : Type) := List (Opening × List β)

open Engine (braced)

/-- The tokens close everything that is open, and they contribute the given list before
the innermost is closed.  A loose flow also has breaks, declarations, items and
headings, which contribute nothing by themselves. -/
inductive Flow {β : Type} (gauge : Gauge β) (loose : Bool) :
    Openings β → List Token → List β → Prop where
  | done : Flow gauge loose [] [] []
  | character {stack : Openings β} {tokens : List Token} {content : List β} {token : Token}
      (plain : token.Plain) (next : Flow gauge loose stack tokens content) :
      Flow gauge loose stack (token :: tokens) (gauge.spelled token.text ++ content)
  | openGroup {stack : Openings β} {tokens : List Token} {inside after : List β}
      (next : Flow gauge loose ((.group, after) :: stack) tokens inside) :
      Flow gauge loose stack (.beginGroup :: tokens)
        (gauge.element Opening.group.form inside ++ after)
  | closeGroup {stack : Openings β} {tokens : List Token} {after : List β}
      (next : Flow gauge loose stack tokens after) :
      Flow gauge loose ((.group, after) :: stack) (.endGroup :: tokens) []
  | beginEnvironment {stack : Openings β} {tokens : List Token} {inside after : List β}
      {name : String} (known : name ∈ Builtin.environmentNames)
      (next : Flow gauge loose ((.environment name, after) :: stack) tokens inside) :
      Flow gauge loose stack (.control "begin" :: braced name tokens)
        (gauge.element (Opening.environment name).form inside ++ after)
  | endEnvironment {stack : Openings β} {tokens : List Token} {after : List β}
      {name : String} (known : name ∈ Builtin.environmentNames)
      (next : Flow gauge loose stack tokens after) :
      Flow gauge loose ((.environment name, after) :: stack)
        (.control "end" :: braced name tokens) []
  | openFormula {stack : Openings β} {first : Token} {tokens : List Token}
      {inside after : List β} (notShift : first.category ≠ .mathShift)
      (outside : ∀ entry ∈ stack, entry.1 ≠ .formula)
      (next : Flow gauge loose ((.formula, after) :: stack) (first :: tokens) inside) :
      Flow gauge loose stack (.mathShift :: first :: tokens)
        (gauge.element Opening.formula.form inside ++ after)
  | closeFormula {stack : Openings β} {tokens : List Token} {after : List β}
      (next : Flow gauge loose stack tokens after) :
      Flow gauge loose ((.formula, after) :: stack) (.mathShift :: tokens) []
  | command {stack : Openings β} {inside behind : List Token} {content after : List β}
      {name : String} (known : name ∈ Builtin.selfNames)
      (balanced : Input.braces 0 inside = some 0)
      (next : Flow gauge loose ((.argument, after) :: stack)
        (inside ++ .argumentEnd :: behind) content) :
      Flow gauge loose stack (.control name :: .beginGroup :: (inside ++ .endGroup :: behind))
        (gauge.element (.enclosing name) content ++ after)
  | argumentEnd {stack : Openings β} {tokens : List Token} {after : List β}
      (next : Flow gauge loose stack tokens after) :
      Flow gauge loose ((.argument, after) :: stack) (.argumentEnd :: tokens) []
  | bare {stack : Openings β} {tokens : List Token} {content : List β} {name : String}
      (isLoose : loose = true) (known : name ∈ Builtin.bareNames)
      (next : Flow gauge loose stack tokens content) :
      Flow gauge loose stack (.control name :: tokens) content
  | item {stack : Openings β} {tokens : List Token} {content after : List β}
      (isLoose : loose = true)
      (next : Flow gauge loose ((.environment "itemize", after) :: stack) tokens content) :
      Flow gauge loose ((.environment "itemize", after) :: stack) (.control "item" :: tokens)
        content
  | heading {stack : Openings β} {title behind : List Token} {words after : List β}
      {name : String} (isLoose : loose = true) (known : name ∈ Builtin.sectionNames)
      (balanced : Input.braces 0 title = some 0)
      (next : Flow gauge loose ((.argument, after) :: stack)
        (title ++ .argumentEnd :: behind) words) :
      Flow gauge loose stack (.control name :: .beginGroup :: (title ++ .endGroup :: behind)) after

/-- Something closes what is open.  The spaces before it contribute nothing, if the gauge
does not see them, and no bracket comes next. -/
theorem Flow.skipSpaces {β : Type} {gauge : Gauge β} {loose : Bool} {stack : Openings β}
    {tokens : List Token} {content : List β} (blank : gauge.spelled " " = [])
    (flow : Flow gauge loose stack tokens content) (isOpen : stack ≠ []) :
    ∃ first behind, tokens.dropWhile Input.isSpace = first :: behind ∧
      first.isChar '[' = false ∧ Flow gauge loose stack (first :: behind) content := by
  induction flow with
  | done => exact absurd rfl isOpen
  | @character stack tokens content token plain next ih =>
      by_cases isSpace : token.category = .space
      · obtain ⟨first, behind, rest, notBracket, flow⟩ := ih isOpen
        refine ⟨first, behind, ?_, notBracket, ?_⟩
        · rw [List.dropWhile_cons_of_pos (by simp [Input.isSpace, isSpace]), rest]
        · rw [plain.space isSpace, blank]
          exact flow
      · refine ⟨token, tokens, ?_, ?_, .character plain next⟩
        · rw [List.dropWhile_cons_of_neg (by simp [Input.isSpace, isSpace])]
        · have notBracket : token.text.toList ≠ ['['] := by
            intro isBracket
            apply plain.bracket
            rw [← String.ofList_toList (s := token.text), isBracket]
          simp [Token.isChar, notBracket]
  | openGroup next => exact ⟨_, _, rfl, rfl, .openGroup next⟩
  | closeGroup next => exact ⟨_, _, rfl, rfl, .closeGroup next⟩
  | beginEnvironment known next => exact ⟨_, _, rfl, rfl, .beginEnvironment known next⟩
  | endEnvironment known next => exact ⟨_, _, rfl, rfl, .endEnvironment known next⟩
  | openFormula notShift outside next =>
      exact ⟨_, _, rfl, rfl, .openFormula notShift outside next⟩
  | closeFormula next => exact ⟨_, _, rfl, rfl, .closeFormula next⟩
  | command known balanced next => exact ⟨_, _, rfl, rfl, .command known balanced next⟩
  | argumentEnd next => exact ⟨_, _, rfl, rfl, .argumentEnd next⟩
  | bare isLoose known next => exact ⟨_, _, rfl, rfl, .bare isLoose known next⟩
  | item isLoose next => exact ⟨_, _, rfl, rfl, .item isLoose next⟩
  | heading isLoose known balanced next =>
      exact ⟨_, _, rfl, rfl, .heading isLoose known balanced next⟩

namespace Engine

variable {β : Type} {gauge : Gauge β} {loose : Bool} {stack : Openings β} {content : List β}
  {engine : Engine} {frames : List Frame} {tokens : List Token}

/-- The frames that are open. -/
def Framed (stack : Openings β) (frames : List Frame) : Prop :=
  List.Forall₂ (fun entry frame => entry.1.Fits frame) stack frames

/-- The formulas that are open. -/
def formulasIn (stack : Openings β) : List String :=
  (stack.filter fun entry => entry.1 = .formula).map fun _ => "math"

/-- The engine reads a flow of so many tokens, with the given frames open. -/
structure Following (gauge : Gauge β) (loose : Bool) (stack : Openings β) (frames : List Frame)
    (content : List β) (size : Nat) (engine : Engine) : Prop where
  flow : ∃ tokens, Reading frames tokens engine ∧ Flow gauge loose stack tokens content ∧
    tokens.length = size
  framed : Framed stack frames
  formulas : engine.mathStack = formulasIn stack

/-- The document, the reports and what has been read too early do not concern the flow. -/
theorem Following.same {size : Nat} {after : Engine}
    (following : Following gauge loose stack frames content size engine)
    (input : after.input = engine.input) (scopes : after.scopes = engine.scopes)
    (formulas : after.mathStack = engine.mathStack) :
    Following gauge loose stack frames content size after := by
  obtain ⟨tokens, reading, flow, length⟩ := following.flow
  refine ⟨⟨tokens, ⟨?_, ?_, reading.plain, ?_⟩, flow, length⟩, following.framed,
    formulas.trans following.formulas⟩
  · rw [input]
    exact reading.ahead
  · rw [scopes]
    exact reading.inner
  · rw [scopes]
    exact reading.base

/-- A node with the given data that contributes a list from the inside, and the flow behind
it. -/
structure Delivered (gauge : Gauge β) (loose : Bool) (id : NodeId) (data : Node)
    (inside : List β) (stack : Openings β) (frames : List Frame) (content : List β) (size : Nat)
    (engine : Engine) : Prop where
  essence : (engine.document.node id).essence = data.essence
  isElement : data.kind = .element
  within : engine.document.within gauge id = inside
  following : Following gauge loose stack frames content size engine

namespace Delivered

variable {id : NodeId} {data : Node} {inside : List β} {size : Nat}

theorem traits (delivered : Delivered gauge loose id data inside stack frames content size engine) :
    (engine.document.node id).traits = data.traits :=
  Node.traits_eq_of_essence_eq delivered.essence

theorem kind (delivered : Delivered gauge loose id data inside stack frames content size engine) :
    (engine.document.node id).kind = .element :=
  (Node.kind_eq_of_essence_eq delivered.essence).trans delivered.isElement

theorem form (delivered : Delivered gauge loose id data inside stack frames content size engine) :
    (engine.document.node id).form = data.form :=
  Node.form_eq_of_essence_eq delivered.essence

theorem level (delivered : Delivered gauge loose id data inside stack frames content size engine) :
    (engine.document.node id).level = data.level :=
  Node.level_eq_of_traits_eq delivered.traits

theorem digest (delivered : Delivered gauge loose id data inside stack frames content size engine) :
    (engine.document.node id).digest = data.digest :=
  Node.digest_eq_of_traits_eq delivered.traits

theorem depth (delivered : Delivered gauge loose id data inside stack frames content size engine) :
    (engine.document.node id).depth = data.depth := by
  have same := congrArg Node.depth delivered.essence
  exact same

end Delivered

/-- The next item of a flow has arrived. -/
inductive Arrives (gauge : Gauge β) (loose : Bool) :
    Openings β → List Frame → List β → Nat → Option Item → Engine → Prop where
  | ended {engine : Engine} (following : Following gauge loose [] [] [] 0 engine) :
      Arrives gauge loose [] [] [] 0 none engine
  | character {stack : Openings β} {frames : List Frame} {content : List β} {size less : Nat}
      {token : Token} {engine : Engine} (plain : token.Plain)
      (following : Following gauge loose stack frames content less engine)
      (shorter : less < size) :
      Arrives gauge loose stack frames (gauge.spelled token.text ++ content) size
        (some (.token token)) engine
  | marker {stack : Openings β} {frame : Frame} {frames : List Frame} {after : List β}
      {size : Nat} {token : Token} {tokens : List Token} {engine : Engine}
      (isMarker : token.bare = .argumentEnd) (reading : Reading (frame :: frames) tokens engine)
      (framed : Framed stack frames) (flow : Flow gauge loose stack tokens after)
      (formulas : engine.mathStack = formulasIn stack) (shorter : tokens.length < size) :
      Arrives gauge loose ((.argument, after) :: stack) (frame :: frames) [] size
        (some (.token token)) engine
  | opened {stack : Openings β} {frame : Frame} {frames : List Frame} {inside after : List β}
      {size less : Nat} {id : NodeId} {data : Node} {opening : Opening} {engine : Engine}
      (form : data.form = opening.form) (digest : data.digest = opening.digest)
      (level : data.level = opening.level) (depth : data.depth = stack.length + 2)
      (childless : opening = .group → engine.document.children id = [])
      (delivered : Delivered gauge loose id data [] ((opening, after) :: stack) (frame :: frames)
        inside less engine) (notArgument : opening ≠ .argument) (shorter : less < size) :
      Arrives gauge loose stack frames (gauge.element opening.form inside ++ after) size
        (some (.node id)) engine
  | closed {stack : Openings β} {frame : Frame} {frames : List Frame} {after : List β}
      {size less : Nat} {id : NodeId} {data : Node} {opening : Opening} {engine : Engine}
      (form : data.form = opening.closer) (level : data.level = opening.level)
      (notArgument : opening ≠ .argument)
      (delivered : Delivered gauge loose id data [] stack frames after less engine)
      (shorter : less < size) :
      Arrives gauge loose ((opening, after) :: stack) (frame :: frames) [] size (some (.node id))
        engine
  | enclosed {stack : Openings β} {frames : List Frame} {inside after : List β}
      {size less : Nat} {id : NodeId} {data : Node} {name : String} {engine : Engine}
      (known : name ∈ Builtin.selfNames) (form : data.form = .enclosing name)
      (digest : data.digest = .nothing) (level : data.level = Level.command)
      (depth : data.depth = stack.length + 1)
      (delivered : Delivered gauge loose id data inside stack frames after less engine)
      (shorter : less < size) :
      Arrives gauge loose stack frames (gauge.element (.enclosing name) inside ++ after) size
        (some (.node id)) engine
  | passed {stack : Openings β} {frames : List Frame} {content : List β} {size less : Nat}
      {id : NodeId} {data : Node} {engine : Engine} (isLoose : loose = true)
      (delivered : Delivered gauge loose id data [] stack frames content less engine)
      (shorter : less < size) :
      Arrives gauge loose stack frames content size (some (.node id)) engine

@[simp] theorem formulasIn_formula (after : List β) (stack : Openings β) :
    formulasIn ((.formula, after) :: stack) = "math" :: formulasIn stack := rfl

theorem formulasIn_other {opening : Opening} (other : opening ≠ .formula) (after : List β)
    (stack : Openings β) : formulasIn ((opening, after) :: stack) = formulasIn stack := by
  simp [formulasIn, other]

theorem formulasIn_of_outside {stack : Openings β}
    (outside : ∀ entry ∈ stack, entry.1 ≠ .formula) : formulasIn stack = [] := by
  rw [formulasIn, List.map_eq_nil_iff, List.filter_eq_nil_iff]
  intro entry member
  simpa using outside entry member

theorem Arrives.size_eq_zero {size : Nat}
    (arrives : Arrives gauge loose stack frames content size none engine) : size = 0 := by
  cases arrives
  rfl

theorem Framed.length {stack : Openings β} (framed : Framed stack frames) :
    frames.length = stack.length := (List.Forall₂.length_eq framed).symm

theorem Framed.exists_cons {entry : Opening × List β} (framed : Framed (entry :: stack) frames) :
    ∃ frame rest, frames = frame :: rest ∧ entry.1.Fits frame ∧ Framed stack rest := by
  obtain _ | ⟨fits, rest⟩ := framed
  exact ⟨_, _, rfl, fits, rest⟩

/-- A node that has been drafted is delivered. -/
theorem Drafting.deliver {start : Engine} {id : NodeId} {data : Node} {inside : List β}
    (drafting : Drafting gauge start id data inside frames tokens engine)
    (framed : Framed stack frames) (formulas : start.mathStack = formulasIn stack)
    (flow : Flow gauge loose stack tokens content) (isElement : data.kind = .element) :
    Delivered gauge loose id data inside stack frames content tokens.length engine where
  essence := drafting.essence
  isElement := isElement
  within := drafting.content
  following := ⟨⟨tokens, drafting.reading, flow, rfl⟩, framed, drafting.formulas.trans formulas⟩

/-- Arguments are interpreted on their own, and leave the flow behind them. -/
def ReadsArguments (gauge : Gauge β) (loose : Bool) (interpreter : Interpreter) (size : Nat) :
    Prop :=
  ∀ {stack : Openings β} {content after : List β} {inside behind : List Token}
    {frames : List Frame},
    Flow gauge loose ((.argument, after) :: stack) (inside ++ .argumentEnd :: behind) content →
    Framed ((.argument, after) :: stack) frames →
    (inside ++ .argumentEnd :: behind).length < size →
    Interprets gauge interpreter frames (formulasIn stack) inside behind content fun tokens' =>
      Flow gauge loose stack tokens' after ∧
        tokens'.length < (inside ++ Token.argumentEnd :: behind).length

/-- A new fragment is to be filled up to the marker of its argument. -/
structure Fragmented (gauge : Gauge β) (loose : Bool) (start : Engine) (fragment : NodeId)
    (stack : Openings β) (frames : List Frame) (content : List β) (size : Nat)
    (engine : Engine) : Prop where
  filling : Filling start fragment engine
  idle : (start.document.node fragment).digest = .nothing
  steady : engine.Steady
  childless : engine.document.children fragment = []
  following : Following gauge loose stack frames content size engine

/-- An argument is interpreted if its fragment is filled with its content. -/
theorem readsArguments_of_fragmented {interpreter : Interpreter} {size : Nat}
    (fills : ∀ {stack : Openings β} {content after : List β} {frames : List Frame}
      {start engine : Engine} {fragment : NodeId} {length : Nat}, length < size →
      Fragmented gauge loose start fragment ((.argument, after) :: stack) frames content length
        engine →
      Runs (digestUntil interpreter fragment "arg") engine fun _ last =>
        last.document.within gauge fragment = content ∧ last.mathStack = formulasIn stack ∧
          ∃ tokens, (Flow gauge loose stack tokens after ∧ tokens.length < length) ∧
            Reading frames tokens last) :
    ReadsArguments gauge loose interpreter size := by
  intro stack content after inside behind frames flow framed short tokens engine same steady
    reading formulas
  obtain ⟨grown, filling⟩ := steady.fill
  have readingFragment : Reading frames behind engine.withFragment :=
    ⟨reading.ahead, reading.inner, reading.plain, reading.base⟩
  unfold toFragment
  have creates : Runs createFragment engine fun fragment created =>
      fragment = engine.document.size ∧ created = engine.withFragment := runs_modifyGet ⟨rfl, rfl⟩
  refine creates.bind ?_
  rintro _ _ ⟨rfl, rfl⟩
  refine ((readingFragment.runs_pushTokens (tokens ++ [.endOfList "arg"])).sat
    (Sat.quiet grown.steady.sane (retains_pushTokens _))).bind ?_
  rintro _ ready ⟨moved, quiet⟩
  have prepared := (grown.steady.quiet quiet).steady
  have empty : ready.buffer = [] := prepared.buffer
  have unchanged : { ready with buffer := [] } = ready := by rw [← empty]
  apply runs_get
  apply runs_modify_bind
  rw [unchanged]
  have isAhead : (tokens ++ [Token.endOfList "arg"]).map Token.bare ++ behind =
      inside ++ .argumentEnd :: behind := by
    rw [List.map_append, same, List.append_assoc]
    rfl
  have fragmented : Fragmented gauge loose engine.withFragment engine.document.size
      ((.argument, after) :: stack) frames content
      (inside ++ Token.argumentEnd :: behind).length ready := by
    refine ⟨filling.quiet quiet, engine.idle_withFragment, prepared, ?_,
      ⟨_, isAhead ▸ moved.reading, flow, rfl⟩, framed, ?_⟩
    · rw [moved.document]
      exact (Document.children_create rfl _).trans (Document.children_of_size_le (Nat.le_refl _))
    · rw [moved.formulas]
      exact formulas.trans (formulasIn_other (by decide) after stack).symm
  refine Runs.bind (Runs.ensuring ?_) fun _ last holds => runs_pure holds
  refine (fills short fragmented).mono ?_
  rintro _ last ⟨isContent, formulasLeft, tokens', isLeft, readingBehind⟩
  exact ⟨isContent, formulasLeft, tokens', isLeft,
    ⟨readingBehind.ahead, readingBehind.inner, readingBehind.plain, readingBehind.base⟩⟩

end Engine

end TexTree
