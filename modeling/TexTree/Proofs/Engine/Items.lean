import TexTree.Proofs.Engine.Events

/-!
# The items of plain documents

The next item comes from the next token.  A character stands for itself, and every
other token of a plain document has a meaning that cannot be expanded and that
produces one node.  The node is noted to come from the token.

This module gives the node for each command, with the frames that are open behind it and
the tokens that are left.
-/

namespace TexTree.Engine

variable {β : Type} {gauge : Gauge β} {start engine : Engine} {id : NodeId} {data : Node}
  {content : List β} {frames : List Frame} {tokens : List Token} {interpreter : Interpreter}

/-- An interpreter that leaves alone what cannot be expanded. -/
def Idles (interpreter : Interpreter) : Prop :=
  ∀ (token : Token) (command : Command) (engine : Engine), command.isExpandable = false →
    interpreter.run (.expand token command) engine = .ok false engine

theorem idles_interpreter (fuel : Nat) : Idles (Engine.interpreter (fuel + 1)) := by
  intro token command engine fixed
  change expandCommand _ token command engine = _
  simp [expandCommand, fixed]
  rfl

/-! ## Tokens with a meaning -/

/-- An engine has noted which token a node comes from. -/
def noted (node : NodeId) (token : Token) (engine : Engine) : Engine :=
  { engine with
    expansions := 0
    document := engine.document.modify node fun inner =>
      { inner with
        position := inner.position <|> token.position
        depth := if inner.depth = 0 then engine.scopes.depth else inner.depth } }

theorem runs_itemOf (idles : Idles interpreter) {token : Token} {command : Command}
    (fixed : command.isExpandable = false) {drafts : NodeId → Engine → Prop}
    (executes : Runs (execute interpreter token command) engine fun item after =>
      ∃ node, item = some (.node node) ∧ drafts node after) :
    Runs (itemOf interpreter token command) engine fun item last =>
      ∃ node after, item = some (.node node) ∧ drafts node after ∧
        last = noted node token after := by
  have invokes : Runs (invoke interpreter token command) engine fun item after =>
      ∃ node, item = some (.node node) ∧ drafts node after := by
    have idle : Runs (interpreter.run (.expand token command)) engine fun expanded after =>
        expanded = false ∧ after = engine :=
      ⟨false, engine, idles token command engine fixed, rfl, rfl⟩
    refine idle.bind ?_
    rintro _ _ ⟨rfl, rfl⟩
    exact executes
  unfold itemOf
  refine invokes.bind ?_
  rintro _ after ⟨node, rfl, drafted⟩
  exact runs_modify_bind (runs_modify_bind (runs_pure ⟨node, after, rfl, drafted, rfl⟩))

/-- A token with a name is invoked with the command that the name is bound to. -/
theorem tokenItem_command {token : Token} {name : String} {command : Command}
    (isName : token.commandName? = some name)
    (isCommand : engine.scopes.command? name = some command) :
    tokenItem interpreter token engine = itemOf interpreter token command engine := by
  have goes : tokenItem interpreter token = lookup name >>= itemOf interpreter token := by
    unfold tokenItem
    cases isCategory : token.category with
    | escape | beginGroup | endGroup | mathShift | alignmentTab | superscript | subscript =>
        simp only [isName]
    | _ =>
        rw [Token.commandName?, isCategory] at isName
        cases isName
  have looks : lookup name engine = .ok command engine := by
    simp only [lookup, bind, EStateM.bind, get_run, isCommand]
    rfl
  rw [goes]
  simp only [bind, EStateM.bind, looks]

/-- A token with a meaning gives the node that its command makes. -/
theorem runs_tokenItem (idles : Idles interpreter) {token : Token} {name : String}
    (named : token.commandName? = some name) {command : Command}
    (found : engine.scopes.command? name = some command)
    (fixed : command.isExpandable = false) {drafts : NodeId → Engine → Prop}
    (executes : Runs (execute interpreter token command) engine fun item after =>
      ∃ node, item = some (.node node) ∧ drafts node after) :
    Runs (tokenItem interpreter token) engine fun item last =>
      ∃ node after, item = some (.node node) ∧ drafts node after ∧
        last = noted node token after := by
  unfold Runs
  rw [tokenItem_command named found]
  exact runs_itemOf idles fixed executes

/-- Behind a token that gives no item, the next one is looked for. -/
theorem nextItemWithin_of_none {token : Token} {between after : Engine}
    (noBuffer : engine.buffer = []) (wasRead : nextToken engine = .ok (some token) between)
    (gaveNone : tokenItem interpreter token between = .ok none after) (steps : Nat) :
    nextItemWithin interpreter (steps + 1) engine = nextItemWithin interpreter steps after := by
  rw [nextItemWithin]
  simp only [bind, EStateM.bind, get_run, noBuffer, wasRead, gaveNone]

/-- A node that is noted looks the same, except that its depth is known. -/
theorem Drafting.noted (drafting : Drafting gauge start id data content frames tokens engine)
    (token : Token) :
    Drafting gauge start id
      { data with depth := if data.depth = 0 then frames.length + 1 else data.depth } content
      frames tokens (engine.noted id token) := by
  have quiet : engine.Grown { engine with expansions := 0 } :=
    drafting.steady.same rfl (fun regular => regular) rfl rfl
  have moved : Moved engine frames tokens { engine with expansions := 0 } :=
    drafting.reading.same rfl rfl rfl rfl rfl
  have changed := (drafting.move quiet moved).modify (fun inner =>
    { inner with
      position := inner.position <|> token.position
      depth := if inner.depth = 0 then engine.scopes.depth else inner.depth })
    (fun _ => rfl) (fun _ => rfl) (fun _ => rfl) (fun _ => rfl) (fun _ => rfl) fun _ => rfl
  rw [Engine.noted]
  rw [drafting.reading.depth] at changed ⊢
  exact changed.of_essence rfl

/-! ## Formulas -/

/-- The environment of a formula. -/
def formula : Element := mathEnvironment "math"

theorem simple_formula : Simple formula where
  regular := regular_mathEnvironment "math"
  unfixed := rfl
  inner := Builtin.environment_ne_document
  locals := .inl rfl
  hook := .inl rfl

/-- The engine in another formula. -/
def inFormula (engine : Engine) : Engine :=
  { engine with mathStack := "math" :: engine.mathStack }

theorem Steady.inFormula (steady : engine.Steady) : engine.Grown engine.inFormula :=
  steady.same rfl (fun regular => regular) rfl rfl

/-- A delimiter opens a formula. -/
theorem Steady.runs_openFormula (gauge : Gauge β) {first : Token} (steady : engine.Steady)
    (reading : Reading frames (first :: tokens) engine) (outside : engine.mathStack = [])
    (notShift : first.category ≠ .mathShift) (token : Token) :
    Runs (shiftMath interpreter token) engine fun node after =>
      Drafting gauge engine.inFormula node
        { draftOf formula .opening with argumentSource := "$", depth := frames.length + 2 } []
        (frameOf formula .opening node :: frames) (first :: tokens) after := by
  have isOutside : ∀ name, engine.isInMath name = false := by
    intro name
    simp [isInMath, outside]
  unfold shiftMath
  apply runs_get
  simp only [isOutside, Bool.false_eq_true, if_false]
  -- The next token is looked at and put back.
  have growsReading : Growing nextRaw := .quiet fun _ => retains_nextRaw
  refine (reading.runs_nextRaw.sat (growsReading engine steady)).bind ?_
  rintro _ between ⟨⟨⟨next, rfl, same⟩, moved⟩, grown⟩
  have nextNotShift : next.category ≠ .mathShift := by
    rw [← same] at notShift
    exact notShift
  simp only [nextNotShift, if_false]
  have growsBack : Growing (putBack next) := .quiet fun _ => retains_putBack next
  refine ((moved.reading.runs_putBack next).sat (growsBack between grown.steady)).bind ?_
  rintro _ back ⟨movedBack, grownBack⟩
  rw [same] at movedBack
  have movedAll := moved.trans movedBack
  have grownAll := grown.trans steady grownBack
  have stillOutside : back.isInMath "math" = false := by
    simp [isInMath, movedAll.formulas, outside]
  rw [pure_bind]
  apply runs_get
  simp only [Bool.false_eq_true, if_false, stillOutside]
  -- The formula is an environment of its own.
  unfold openMath
  apply runs_modify_bind
  have begun := grownAll.steady.inFormula
  have readingInside : Reading frames (first :: tokens) back.inFormula :=
    ⟨movedAll.reading.ahead, movedAll.reading.inner, movedAll.reading.plain, movedAll.reading.base⟩
  have invokes : Runs (invokeElement interpreter formula token .opening) back.inFormula
      fun node after => Drafting gauge back.inFormula node
        { draftOf formula .opening with depth := frames.length + 2 } []
        (frameOf formula .opening node :: frames) (first :: tokens) after :=
    begun.steady.runs_invokeBare gauge readingInside simple_formula (by decide) rfl token
      (by decide)
  refine Runs.bind invokes ?_
  intro node after drafting
  have delimited := drafting.modify (fun inner => { inner with argumentSource := "$" })
    (fun _ => rfl) (fun _ => rfl) (fun _ => rfl) (fun _ => rfl) (fun _ => rfl) fun _ => rfl
  refine runs_modify_bind (runs_pure (delimited.since steady.inFormula.steady ?_ ?_))
  · exact ⟨begun.steady, grownAll.ext⟩
  · rw [Engine.inFormula, Engine.inFormula, movedAll.formulas]

/-- The engine outside of the innermost formula. -/
def behindFormula (engine : Engine) : Engine :=
  { engine with mathStack := engine.mathStack.drop 1 }

theorem Steady.behindFormula (steady : engine.Steady) : engine.Grown engine.behindFormula :=
  steady.same rfl (fun regular => regular) rfl rfl

/-- The delimiter closes the formula. -/
theorem Steady.runs_closeFormula (gauge : Gauge β) {frame : Frame} (steady : engine.Steady)
    (reading : Reading (frame :: frames) tokens engine) (isOpen : OpenedBy "math" frame)
    {formulas : List String} (inside : engine.mathStack = "math" :: formulas) (token : Token) :
    Runs (shiftMath interpreter token) engine fun node after =>
      Drafting gauge engine.behindFormula node
        { environmentEndNode "math" with depth := frames.length + 1 } [] frames tokens after := by
  have isInside : engine.isInMath "math" = true := by simp [isInMath, inside]
  unfold shiftMath
  apply runs_get
  simp only [isInside, if_true]
  unfold closeMath
  apply runs_get
  simp only [isInside, Bool.not_true, Bool.false_eq_true, if_false]
  apply runs_modify_bind
  have readingBehind : Reading (frame :: frames) tokens engine.behindFormula :=
    ⟨reading.ahead, reading.inner, reading.plain, reading.base⟩
  unfold invokeElement
  exact (steady.behindFormula.steady.runs_closeEnvironment gauge readingBehind isOpen).bind
    fun node after drafting => runs_pure drafting

end TexTree.Engine
