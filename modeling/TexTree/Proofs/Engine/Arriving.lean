import TexTree.Proofs.Engine.Flow

/-!
# The items of a flow

Each token of a flow has its item, and the flow goes on behind it.  What the token is
decides what arrives, a lemma for each kind; the next item is that of the first token
that is ahead (`Following.runs_nextItem`).
-/

namespace TexTree

namespace Engine

variable {β : Type} {gauge : Gauge β} {loose : Bool} {stack : Openings β} {content : List β}
  {engine : Engine} {frames : List Frame} {tokens : List Token}

/-! ## Tokens of a flow -/

section TokenItem

variable {interpreter : Interpreter} {token : Token} {size : Nat}

theorem commandName?_of_bare {other : Token} (same : token.bare = other) :
    token.commandName? = other.commandName? := by
  rw [← same]
  rfl

theorem category_of_bare {other : Token} (same : token.bare = other) :
    token.category = other.category := by
  rw [← same]
  rfl

theorem Reading.runs_plainItem (reading : Reading frames tokens engine) (plain : token.Plain) :
    Runs (tokenItem interpreter token) engine fun item after =>
      item = some (.token token) ∧ Moved engine frames tokens after := by
  have cleared : Moved engine frames tokens { engine with expansions := 0 } :=
    reading.same rfl rfl rfl rfl rfl
  unfold tokenItem
  rcases plain.category with isLetter | isOther | isSpace
  · rw [isLetter]
    exact runs_modify_bind (runs_pure ⟨rfl, cleared⟩)
  · rw [isOther]
    exact runs_modify_bind (runs_pure ⟨rfl, cleared⟩)
  · rw [isSpace]
    exact runs_modify_bind (runs_pure ⟨rfl, cleared⟩)

/-- A token of a group or an environment gives the node that its command constructs. -/
theorem Reading.runs_construction (idles : Idles interpreter) {other : Token}
    (same : token.bare = other) {name : String} (named : other.commandName? = some name)
    (reading : Reading frames tokens engine) (isKeyword : name ∈ Builtin.keywords)
    {kind : Construction}
    (found : Builtin.meaning? name = some (.primitive name (.construction kind)))
    {drafts : NodeId → Engine → Prop}
    (constructs : Runs (construct interpreter token kind) engine fun result after =>
      ∃ node, result = some node ∧ drafts node after) :
    Runs (tokenItem interpreter token) engine fun item last =>
      ∃ node after, item = some (.node node) ∧ drafts node after ∧
        last = noted node token after := by
  refine runs_tokenItem idles ((commandName?_of_bare same).trans named)
    ((reading.command? isKeyword).trans found) rfl ?_
  refine constructs.bind ?_
  rintro _ after ⟨node, rfl, drafted⟩
  exact runs_pure ⟨node, rfl, drafted⟩

/-- A token of an element gives the node that the element makes. -/
theorem runs_elementItem (idles : Idles interpreter) {name : String}
    (same : token.bare = .control name) {element : Element}
    (found : engine.scopes.command? name = some (.element element))
    {drafts : NodeId → Engine → Prop}
    (invokes : Runs (invokeElement interpreter element token .plain) engine drafts) :
    Runs (tokenItem interpreter token) engine fun item last =>
      ∃ node after, item = some (.node node) ∧ drafts node after ∧
        last = noted node token after := by
  refine runs_tokenItem idles (commandName?_of_bare same) found rfl ?_
  refine invokes.bind ?_
  exact fun node after drafted => runs_pure ⟨node, rfl, drafted⟩

variable {inside after : List β}

theorem Steady.arrives_openGroup (idles : Idles interpreter) (steady : engine.Steady)
    (reading : Reading frames tokens engine) (framed : Framed stack frames)
    (formulas : engine.mathStack = formulasIn stack)
    (flow : Flow gauge loose ((.group, after) :: stack) tokens inside)
    (same : token.bare = .beginGroup) (shorter : tokens.length < size) :
    Runs (tokenItem interpreter token) engine
      (Arrives gauge loose stack frames (gauge.element Opening.group.form inside ++ after)
        size) := by
  have opens : Runs (construct interpreter token .openGroup) engine fun result after =>
      ∃ node, result = some node ∧
        Drafting gauge engine node groupNode [] (plainFrame none [] :: frames) tokens after ∧
          after.document.children node = [] := by
    refine Runs.map ((steady.runs_openGroup gauge reading (category_of_bare same)).mono ?_)
    exact fun node after drafted => ⟨node, rfl, drafted⟩
  refine (reading.runs_construction idles same rfl (by decide)
    Builtin.meaning?_bgroup opens).mono ?_
  rintro _ _ ⟨node, between, rfl, ⟨drafting, childless⟩, rfl⟩
  have framedInside : Framed ((Opening.group, after) :: stack) (plainFrame none [] :: frames) :=
    .cons rfl framed
  refine .opened rfl rfl rfl ?_ (fun _ => ?_)
    ((drafting.noted token).deliver framedInside formulas flow rfl) (by decide) shorter
  · simp [groupNode, Document.element, framed.length]
  · refine (Document.children_modify _ ?_ between.document node node).trans childless
    exact fun _ => rfl

theorem Steady.arrives_closeGroup (idles : Idles interpreter) (steady : engine.Steady)
    (reading : Reading frames tokens engine) (framed : Framed ((.group, after) :: stack) frames)
    (formulas : engine.mathStack = formulasIn stack)
    (flow : Flow gauge loose stack tokens after) (same : token.bare = .endGroup)
    (shorter : tokens.length < size) :
    Runs (tokenItem interpreter token) engine
      (Arrives gauge loose ((.group, after) :: stack) frames [] size) := by
  obtain ⟨frame, outer, rfl, isGroup, framedOutside⟩ := framed.exists_cons
  have closes : Runs (construct interpreter token .closeGroup) engine fun result after =>
      ∃ node, result = some node ∧
        Drafting gauge engine node groupEndNode [] outer tokens after := by
    refine Runs.map ((steady.runs_closeGroup gauge reading isGroup (category_of_bare same)).mono ?_)
    exact fun node after drafting => ⟨node, rfl, drafting⟩
  refine (reading.runs_construction idles same rfl (by decide)
    Builtin.meaning?_egroup closes).mono ?_
  rintro _ _ ⟨node, between, rfl, drafting, rfl⟩
  exact .closed rfl rfl (by decide) ((drafting.noted token).deliver framedOutside formulas flow rfl)
    shorter

theorem Steady.arrives_beginEnvironment (idles : Idles interpreter) (steady : engine.Steady)
    {name : String} (reading : Reading frames (braced name tokens) engine)
    (framed : Framed stack frames) (formulas : engine.mathStack = formulasIn stack)
    (known : name ∈ Builtin.environmentNames)
    (flow : Flow gauge loose ((.environment name, after) :: stack) tokens inside)
    (same : token.bare = .control "begin") (shorter : tokens.length < size) :
    Runs (tokenItem interpreter token) engine
      (Arrives gauge loose stack frames
        (gauge.element (Opening.environment name).form inside ++ after) size) := by
  obtain ⟨element, isElement⟩ := Builtin.exists_isEnvironment known
  have begins : Runs (construct interpreter token .beginEnvironment) engine fun result after =>
      ∃ node, result = some node ∧
        Drafting gauge engine node
          { draftOf element .opening with depth := frames.length + 2 } []
          (frameOf element .opening node :: frames) tokens after := by
    refine Runs.map ((steady.runs_beginEnvironment gauge reading known isElement token).mono ?_)
    exact fun node after drafting => ⟨node, rfl, drafting⟩
  refine (reading.runs_construction idles same rfl (by decide)
    Builtin.meaning?_begin begins).mono ?_
  rintro _ _ ⟨node, between, rfl, drafting, rfl⟩
  have fits : (Opening.environment name).Fits (frameOf element .opening node) := by
    refine ⟨⟨_, rfl, isElement.isNamed, rfl, isElement.level⟩, fun isList => ?_⟩
    change Table.ofList element.locals = _
    rw [isElement.items isList]
  have framedInside : Framed ((Opening.environment name, after) :: stack)
      (frameOf element .opening node :: frames) := .cons fits framed
  refine .opened ?_ isElement.digest isElement.level ?_ (by simp)
    ((drafting.noted token).deliver framedInside formulas flow rfl) (by simp) shorter
  · simp [Node.form, draftOf, Document.element, isElement.isNamed, isElement.digest, Opening.form]
  · simp [framed.length]

theorem Steady.arrives_endEnvironment (idles : Idles interpreter) (steady : engine.Steady)
    {name : String} (reading : Reading frames (braced name tokens) engine)
    (framed : Framed ((.environment name, after) :: stack) frames)
    (formulas : engine.mathStack = formulasIn stack)
    (known : name ∈ Builtin.environmentNames) (flow : Flow gauge loose stack tokens after)
    (same : token.bare = .control "end") (shorter : tokens.length < size) :
    Runs (tokenItem interpreter token) engine
      (Arrives gauge loose ((.environment name, after) :: stack) frames [] size) := by
  obtain ⟨element, isElement⟩ := Builtin.exists_isEnvironment known
  obtain ⟨frame, outer, rfl, isOpen, framedOutside⟩ := framed.exists_cons
  have ends : Runs (construct interpreter token .endEnvironment) engine fun result after =>
      ∃ node, result = some node ∧
        Drafting gauge engine node { environmentEndNode name with depth := outer.length + 1 } []
          outer tokens after :=
    steady.runs_endEnvironment gauge reading known isElement isOpen.1 token
  refine (reading.runs_construction idles same rfl (by decide)
    Builtin.meaning?_end ends).mono ?_
  rintro _ _ ⟨node, between, rfl, drafting, rfl⟩
  exact .closed rfl rfl (by simp) ((drafting.noted token).deliver framedOutside formulas flow rfl)
    shorter

theorem Steady.arrives_openFormula (idles : Idles interpreter) (steady : engine.Steady)
    {first : Token} (reading : Reading frames (first :: tokens) engine)
    (framed : Framed stack frames) (formulas : engine.mathStack = formulasIn stack)
    (notShift : first.category ≠ .mathShift) (outside : ∀ entry ∈ stack, entry.1 ≠ .formula)
    (flow : Flow gauge loose ((.formula, after) :: stack) (first :: tokens) inside)
    (same : token.bare = .mathShift) (shorter : (first :: tokens).length < size) :
    Runs (tokenItem interpreter token) engine
      (Arrives gauge loose stack frames (gauge.element Opening.formula.form inside ++ after)
        size) := by
  have noFormula : engine.mathStack = [] := formulas.trans (formulasIn_of_outside outside)
  have opens : Runs (construct interpreter token .mathShift) engine fun result after =>
      ∃ node, result = some node ∧
        Drafting gauge engine.inFormula node
          { draftOf formula .opening with argumentSource := "$", depth := frames.length + 2 } []
          (frameOf formula .opening node :: frames) (first :: tokens) after := by
    refine Runs.map ((steady.runs_openFormula gauge reading noFormula notShift token).mono ?_)
    exact fun node after drafting => ⟨node, rfl, drafting⟩
  refine (reading.runs_construction idles same rfl (by decide)
    Builtin.meaning?_mathShift opens).mono ?_
  rintro _ _ ⟨node, between, rfl, drafting, rfl⟩
  have fits : Opening.formula.Fits (frameOf formula .opening node) := ⟨_, rfl, rfl, rfl, rfl⟩
  have framedInside : Framed ((Opening.formula, after) :: stack)
      (frameOf formula .opening node :: frames) := .cons fits framed
  have formulasInside : engine.inFormula.mathStack = formulasIn ((.formula, after) :: stack) := by
    rw [formulasIn_formula, ← formulas]
    rfl
  refine .opened rfl rfl rfl ?_ (by simp)
    ((drafting.noted token).deliver framedInside formulasInside flow rfl) (by decide) shorter
  simp [framed.length]

theorem Steady.arrives_closeFormula (idles : Idles interpreter) (steady : engine.Steady)
    (reading : Reading frames tokens engine) (framed : Framed ((.formula, after) :: stack) frames)
    (formulas : engine.mathStack = formulasIn ((.formula, after) :: stack))
    (flow : Flow gauge loose stack tokens after) (same : token.bare = .mathShift)
    (shorter : tokens.length < size) :
    Runs (tokenItem interpreter token) engine
      (Arrives gauge loose ((.formula, after) :: stack) frames [] size) := by
  obtain ⟨frame, outer, rfl, isOpen, framedOutside⟩ := framed.exists_cons
  have closes : Runs (construct interpreter token .mathShift) engine fun result after =>
      ∃ node, result = some node ∧
        Drafting gauge engine.behindFormula node
          { environmentEndNode "math" with depth := outer.length + 1 } [] outer tokens after := by
    refine Runs.map ((steady.runs_closeFormula gauge reading isOpen formulas token).mono ?_)
    exact fun node after drafting => ⟨node, rfl, drafting⟩
  refine (reading.runs_construction idles same rfl (by decide)
    Builtin.meaning?_mathShift closes).mono ?_
  rintro _ _ ⟨node, between, rfl, drafting, rfl⟩
  have formulasOutside : engine.behindFormula.mathStack = formulasIn stack := by
    rw [Engine.behindFormula, formulas]
    rfl
  exact .closed rfl rfl (by decide)
    ((drafting.noted token).deliver framedOutside formulasOutside flow rfl) shorter

theorem Reading.arrives_argumentEnd (reading : Reading frames tokens engine)
    (framed : Framed ((.argument, after) :: stack) frames)
    (formulas : engine.mathStack = formulasIn stack) (flow : Flow gauge loose stack tokens after)
    (same : token.bare = .argumentEnd) (shorter : tokens.length < size) :
    Runs (tokenItem interpreter token) engine
      (Arrives gauge loose ((.argument, after) :: stack) frames [] size) := by
  obtain ⟨frame, outer, rfl, _, framedOutside⟩ := framed.exists_cons
  have isMarker : token.category = .endOfList := category_of_bare same
  have text : token.text = "arg" := congrArg Token.text same
  have unnamed : Text.afterMark? "end:" token.text = none := by
    rw [text]
    decide
  unfold tokenItem
  rw [isMarker]
  simp only [unnamed]
  exact runs_pure (.marker same reading framedOutside flow formulas shorter)

theorem Steady.arrives_command (builds : interpreter.Builds) (idles : Idles interpreter)
    (steady : engine.Steady) (reads : ReadsArguments gauge loose interpreter size)
    {argument behind : List Token} {name : String}
    (reading : Reading frames (.beginGroup :: (argument ++ .endGroup :: behind)) engine)
    (framed : Framed stack frames) (formulas : engine.mathStack = formulasIn stack)
    (known : name ∈ Builtin.selfNames) (balanced : Input.braces 0 argument = some 0)
    (flow : Flow gauge loose ((.argument, after) :: stack) (argument ++ .argumentEnd :: behind)
      inside)
    (same : token.bare = .control name)
    (shorter : (argument ++ Token.argumentEnd :: behind).length < size) :
    Runs (tokenItem interpreter token) engine
      (Arrives gauge loose stack frames (gauge.element (.enclosing name) inside ++ after)
        size) := by
  obtain ⟨element, isElement⟩ := Builtin.exists_isSelf known
  have facts : ∀ name ∈ Builtin.selfNames, name ∈ Builtin.keywords ∧ name ≠ "enumerate" := by
    decide
  obtain ⟨isKeyword, other⟩ := facts name known
  have arguments : element.arguments = [.content] ∨
      ∃ option, element.arguments = [.optional option, .content] :=
    isElement.arguments.imp id fun both => ⟨"mark", both⟩
  have interprets : ∀ node, Interprets gauge interpreter (frameOf element .plain node :: frames)
      engine.mathStack argument behind inside fun tokens' =>
        Flow gauge loose stack tokens' after ∧
          tokens'.length < (argument ++ Token.argumentEnd :: behind).length := by
    intro node
    rw [formulas]
    exact reads flow (.cons trivial framed) shorter
  have distinct : element.name ≠ "enumerate" := by
    rw [isElement.isNamed]
    exact other
  have invokes := steady.runs_invokeSelf builds reading isElement.simple distinct isElement.digest
    arguments balanced token interprets
  refine (runs_elementItem idles same ((reading.command? isKeyword).trans isElement.meaning)
    invokes).mono ?_
  rintro _ _ ⟨node, between, rfl, ⟨tokens', ⟨flowBehind, fewer⟩, drafting⟩, rfl⟩
  refine .enclosed known ?_ isElement.digest isElement.level ?_
    ((drafting.noted token).deliver framed formulas flowBehind rfl) (Nat.lt_trans fewer shorter)
  · simp [Node.form, draftOf, Document.element, isElement.isNamed, Form.enclosing]
  · simp [framed.length]

theorem Steady.arrives_bare (idles : Idles interpreter) (steady : engine.Steady) {name : String}
    (reading : Reading frames tokens engine) (framed : Framed stack frames)
    (formulas : engine.mathStack = formulasIn stack) (isLoose : loose = true)
    (known : name ∈ Builtin.bareNames) (flow : Flow gauge loose stack tokens content)
    (same : token.bare = .control name) (shorter : tokens.length < size) :
    Runs (tokenItem interpreter token) engine (Arrives gauge loose stack frames content size) := by
  obtain ⟨element, isElement⟩ := Builtin.exists_isBare known
  have facts : ∀ name ∈ Builtin.bareNames, name ∈ Builtin.keywords ∧ name ≠ "enumerate" := by
    decide
  obtain ⟨isKeyword, other⟩ := facts name known
  have distinct : element.name ≠ "enumerate" := by
    rw [isElement.isNamed]
    exact other
  have invokes : Runs (invokeElement interpreter element token .plain) engine fun node after =>
      Drafting gauge engine node { draftOf element .plain with depth := frames.length + 1 } []
        frames tokens after :=
    steady.runs_invokeBare gauge reading isElement.simple distinct isElement.arguments token
      (by decide)
  refine (runs_elementItem idles same ((reading.command? isKeyword).trans isElement.meaning)
    invokes).mono ?_
  rintro _ _ ⟨node, between, rfl, drafting, rfl⟩
  exact .passed isLoose ((drafting.noted token).deliver framed formulas flow rfl) shorter

theorem Steady.arrives_heading (builds : interpreter.Builds) (idles : Idles interpreter)
    (enough : 0 < interpreter.limit) (steady : engine.Steady)
    (reads : ReadsArguments gauge loose interpreter size)
    {title behind : List Token} {words : List β} {name : String}
    (reading : Reading frames (.beginGroup :: (title ++ .endGroup :: behind)) engine)
    (framed : Framed stack frames) (formulas : engine.mathStack = formulasIn stack)
    (isLoose : loose = true) (known : name ∈ Builtin.sectionNames)
    (balanced : Input.braces 0 title = some 0)
    (flow : Flow gauge loose ((.argument, after) :: stack) (title ++ .argumentEnd :: behind)
      words)
    (same : token.bare = .control name)
    (shorter : (title ++ Token.argumentEnd :: behind).length < size) :
    Runs (tokenItem interpreter token) engine (Arrives gauge loose stack frames after size) := by
  obtain ⟨element, isElement⟩ := Builtin.exists_isHeading known
  have facts : ∀ name ∈ Builtin.sectionNames, name ∈ Builtin.keywords ∧ name ≠ "enumerate" := by
    decide
  obtain ⟨isKeyword, other⟩ := facts name known
  have distinct : element.name ≠ "enumerate" := by
    rw [isElement.isNamed]
    exact other
  have interprets : ∀ node, Interprets gauge interpreter (frameOf element .plain node :: frames)
      engine.mathStack title behind words fun tokens' =>
        Flow gauge loose stack tokens' after ∧
          tokens'.length < (title ++ Token.argumentEnd :: behind).length := by
    intro node
    rw [formulas]
    exact reads flow (.cons trivial framed) shorter
  have invokes := steady.runs_invokeHeading builds reading isElement.simple distinct
    isElement.arguments balanced enough token interprets
  refine (runs_elementItem idles same ((reading.command? isKeyword).trans isElement.meaning)
    invokes).mono ?_
  rintro _ _ ⟨node, between, rfl, ⟨tokens', ⟨flowBehind, fewer⟩, drafting⟩, rfl⟩
  exact .passed isLoose ((drafting.noted token).deliver framed formulas flowBehind rfl)
    (Nat.lt_trans fewer shorter)

end TokenItem

/-- The item of a list is an ordinary element. -/
theorem simple_item : Simple Builtin.item := by
  have known : "itemize" ∈ Builtin.environmentNames := List.mem_cons_self
  obtain ⟨element, isElement⟩ := Builtin.exists_isEnvironment known
  have regular := isElement.simple.regular.locals ("item", .element Builtin.item)
    (by simp [isElement.items rfl])
  exact ⟨regular, rfl, by decide, .inl rfl, .inl rfl⟩

section NextItem

variable {interpreter : Interpreter} {size : Nat}

theorem Steady.arrives_item (idles : Idles interpreter) (steady : engine.Steady) {token : Token}
    {after : List β} (blank : gauge.spelled " " = []) (reading : Reading frames tokens engine)
    (framed : Framed ((.environment "itemize", after) :: stack) frames)
    (formulas : engine.mathStack = formulasIn ((.environment "itemize", after) :: stack))
    (isLoose : loose = true)
    (flow : Flow gauge loose ((.environment "itemize", after) :: stack) tokens content)
    (same : token.bare = .control "item") (shorter : tokens.length < size) :
    Runs (tokenItem interpreter token) engine
      (Arrives gauge loose ((.environment "itemize", after) :: stack) frames content size) := by
  obtain ⟨first, behind, follows, absent, flowBehind⟩ := flow.skipSpaces blank (by simp)
  obtain ⟨frame, outer, rfl, fits, _⟩ := framed.exists_cons
  have invokes : Runs (invokeElement interpreter Builtin.item token .plain) engine
      fun node after => Drafting gauge engine node
        { draftOf Builtin.item .plain with depth := (frame :: outer).length + 1 } []
        (frame :: outer) (first :: behind) after :=
    steady.runs_invokeWithoutOption gauge reading simple_item (by decide) rfl token (by decide)
      follows absent
  refine (runs_elementItem idles same (reading.command?_item (fits.2 rfl)) invokes).mono ?_
  rintro _ _ ⟨node, between, rfl, drafting, rfl⟩
  refine .passed isLoose ((drafting.noted token).deliver framed formulas flowBehind rfl)
    (Nat.lt_of_le_of_lt ?_ shorter)
  rw [← follows]
  exact (List.dropWhile_sublist _).length_le

/-- The first token of a flow decides what arrives. -/
theorem Steady.arrives_first (steady : engine.Steady) {first : Token} {rest : List Token}
    (reading : Reading frames (first :: rest) engine) (enough : 0 < interpreter.limit)
    (sizePos : 0 < size)
    (gives : ∀ token between, token.bare = first → engine.Moved frames rest between →
      between.Steady →
      Runs (tokenItem interpreter token) between
        (Arrives gauge loose stack frames content size)) :
    Runs (nextItem interpreter) engine (Arrives gauge loose stack frames content size) := by
  obtain ⟨steps, limit⟩ := Nat.exists_eq_add_one.mpr enough
  have growing : Growing nextToken := .quiet fun _ => retains_nextToken
  unfold nextItem
  rw [limit, nextItemWithin]
  apply runs_get
  rw [steady.buffer]
  refine (reading.runs_nextToken.sat (growing engine steady)).bind ?_
  rintro _ between ⟨⟨⟨token, rfl, same⟩, moved⟩, grown⟩
  refine (gives token between same moved grown.steady).bind ?_
  intro item after arrived
  cases item with
  | some item => exact runs_pure arrived
  | none => exact absurd arrived.size_eq_zero (Nat.ne_of_gt sizePos)

/-- Where nothing is left to be read, the end arrives. -/
theorem Steady.arrives_ended (steady : engine.Steady) (reading : Reading [] [] engine)
    (enough : 0 < interpreter.limit) (formulas : engine.mathStack = []) :
    Runs (nextItem interpreter) engine (Arrives gauge loose [] [] [] 0) := by
  obtain ⟨steps, limit⟩ := Nat.exists_eq_add_one.mpr enough
  unfold nextItem
  rw [limit, nextItemWithin]
  apply runs_get
  rw [steady.buffer]
  refine reading.runs_nextToken_nil.bind ?_
  rintro _ after ⟨rfl, moved⟩
  exact runs_pure (.ended ⟨⟨[], moved.reading, .done, rfl⟩, .nil, moved.formulas.trans formulas⟩)

/-- The next item of a flow arrives. -/
theorem Following.runs_nextItem (builds : interpreter.Builds) (idles : Idles interpreter)
    (enough : 0 < interpreter.limit) (reads : ReadsArguments gauge loose interpreter size)
    (blank : loose = true → gauge.spelled " " = []) (steady : engine.Steady)
    (following : Following gauge loose stack frames content size engine) :
    Runs (nextItem interpreter) engine (Arrives gauge loose stack frames content size) := by
  obtain ⟨⟨tokens, reading, flow, rfl⟩, framed, formulas⟩ := following
  have arrives : ∀ {first : Token} {rest : List Token}, tokens = first :: rest →
      (∀ token between, token.bare = first → engine.Moved frames rest between →
        between.Steady →
        Runs (tokenItem interpreter token) between
          (Arrives gauge loose stack frames content tokens.length)) →
      Runs (nextItem interpreter) engine
        (Arrives gauge loose stack frames content tokens.length) := by
    intro first rest isFirst gives
    exact steady.arrives_first (isFirst ▸ reading) enough (by simp [isFirst]) gives
  cases flow with
  | done =>
      cases framed
      exact steady.arrives_ended reading enough formulas
  | character plain next =>
      refine arrives rfl fun token between same moved steady => ?_
      have plain : token.Plain := by
        rw [← same] at plain
        exact ⟨plain.category, plain.space, plain.bracket⟩
      refine (moved.reading.runs_plainItem plain).mono ?_
      rintro _ after ⟨rfl, moved'⟩
      rw [← same]
      refine .character plain ⟨⟨_, moved'.reading, next, rfl⟩, framed, ?_⟩ (Nat.lt_succ_self _)
      exact (moved.trans moved').formulas.trans formulas
  | openGroup next =>
      refine arrives rfl fun token between same moved steady => ?_
      exact steady.arrives_openGroup idles moved.reading framed (moved.formulas.trans formulas) next
        same (Nat.lt_succ_self _)
  | closeGroup next =>
      refine arrives rfl fun token between same moved steady => ?_
      exact steady.arrives_closeGroup idles moved.reading framed (moved.formulas.trans formulas)
        next same (Nat.lt_succ_self _)
  | beginEnvironment known next =>
      refine arrives rfl fun token between same moved steady => ?_
      refine steady.arrives_beginEnvironment idles moved.reading framed
        (moved.formulas.trans formulas) known next same ?_
      simp only [braced, List.length_cons, List.length_append]
      omega
  | endEnvironment known next =>
      refine arrives rfl fun token between same moved steady => ?_
      refine steady.arrives_endEnvironment idles moved.reading framed
        (moved.formulas.trans formulas) known next same ?_
      simp only [braced, List.length_cons, List.length_append]
      omega
  | openFormula notShift outside next =>
      refine arrives rfl fun token between same moved steady => ?_
      exact steady.arrives_openFormula idles moved.reading framed (moved.formulas.trans formulas)
        notShift outside next same (Nat.lt_succ_self _)
  | closeFormula next =>
      refine arrives rfl fun token between same moved steady => ?_
      exact steady.arrives_closeFormula idles moved.reading framed (moved.formulas.trans formulas)
        next same (Nat.lt_succ_self _)
  | command known balanced next =>
      refine arrives rfl fun token between same moved steady => ?_
      refine steady.arrives_command builds idles reads moved.reading framed
        (moved.formulas.trans formulas) known balanced next same ?_
      simp only [List.length_cons, List.length_append]
      omega
  | argumentEnd next =>
      refine arrives rfl fun token between same moved steady => ?_
      exact moved.reading.arrives_argumentEnd framed (moved.formulas.trans formulas) next same
        (Nat.lt_succ_self _)
  | bare isLoose known next =>
      refine arrives rfl fun token between same moved steady => ?_
      exact steady.arrives_bare idles moved.reading framed (moved.formulas.trans formulas) isLoose
        known next same (Nat.lt_succ_self _)
  | item isLoose next =>
      refine arrives rfl fun token between same moved steady => ?_
      exact steady.arrives_item idles (blank isLoose) moved.reading framed
        (moved.formulas.trans formulas) isLoose next same (Nat.lt_succ_self _)
  | heading isLoose known balanced next =>
      refine arrives rfl fun token between same moved steady => ?_
      refine steady.arrives_heading builds idles enough reads moved.reading framed
        (moved.formulas.trans formulas) isLoose known balanced next same ?_
      simp only [List.length_cons, List.length_append]
      omega

end NextItem

end Engine

end TexTree
