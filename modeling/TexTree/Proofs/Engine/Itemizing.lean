import TexTree.Proofs.Engine.Scoping

/-!
# Items of lists

An item of a list begins with a command that only lists know.  It opens no scope and looks
for a term behind it; without one, an item of an enumeration steps the counter of the
innermost one and gets its printed form as its number.
-/

namespace TexTree

namespace Engine

variable {engine : Engine} {name : String} {token : Token} {interpreter : Interpreter}

/-- The node of an item without a term. -/
def itemNode (position : Option Position) (number : Option String) (depth : Nat) : Node :=
  { draftOf Builtin.item .plain with
    attributes := [("term", .none)], position, number, depth }

/-- The counter that numbers the items of the innermost enumeration. -/
def itemCounter (engine : Engine) : String :=
  enumerationCounters.getD (min (engine.enumerationDepth - 1) 3) "enumi"

/-- The counter of the innermost enumeration has been stepped. -/
def stepped (engine : Engine) : Engine :=
  { engine with
    counters := (engine.counters.step? engine.itemCounter).getD engine.counters }

/-- An item without a number has begun. -/
def bulleted (engine : Engine) (position : Option Position) : Engine :=
  { engine with
    document := (engine.document.create (itemNode position none engine.scopes.depth)).2 }

/-- An item with a number has begun, which labels refer to from now on. -/
def numbered (engine : Engine) (position : Option Position) : Engine :=
  let printed := engine.stepped.printed? engine.itemCounter
  { engine.stepped with
    document := (engine.document.create
      (itemNode position (printed.map Prod.fst) engine.scopes.depth)).2
    references := { engine.references with current := some engine.document.size }
    log := engine.log ++ (printed.map Prod.snd).getD [] }

/-- An item of the list with the given name has begun. -/
def itemized (engine : Engine) (name : String) (position : Option Position) : Engine :=
  if name = "enumerate" then engine.numbered position else engine.bulleted position

/-- An item opens no scope, and does not look at the input. -/
theorem itemized_input (engine : Engine) (name : String) (position : Option Position)
    (rest : Input) : itemized { engine with input := rest } name position =
      { engine.itemized name position with input := rest } := by
  unfold itemized
  split <;> rfl

@[simp] theorem scopes_itemized (engine : Engine) (name : String) (position : Option Position) :
    (engine.itemized name position).scopes = engine.scopes := by
  unfold itemized
  split <;> rfl

@[simp] theorem buffer_itemized (engine : Engine) (name : String) (position : Option Position) :
    (engine.itemized name position).buffer = engine.buffer := by
  unfold itemized
  split <;> rfl

/-- An optional argument that is left out. -/
theorem runs_readBracketed_none {rest : Input}
    (absent : Input.bracketed engine.scopes.categories '[' ']' engine.input = (.ok none, rest)) :
    Runs (readBracketed '[' ']') engine fun result after =>
      result = none ∧ after = { engine with input := rest } := by
  have reads : Runs (reading fun table input => input.bracketed table '[' ']') engine
      fun result after => result = .ok none ∧ after = { engine with input := rest } := by
    refine runs_modifyGet ?_
    dsimp only
    rw [absent]
    exact ⟨rfl, rfl⟩
  refine reads.bind ?_
  rintro _ _ ⟨rfl, rfl⟩
  exact runs_pure ⟨rfl, rfl⟩

/-- A printed form is reported on. -/
theorem runs_printCounter (name : String) :
    Runs (printCounter name) engine fun text after =>
      text = (engine.printed? name).map Prod.fst ∧
        after = { engine with
          log := engine.log ++ ((engine.printed? name).map Prod.snd).getD [] } := by
  unfold printCounter
  apply runs_get
  cases engine.printed? name with
  | none => exact runs_pure ⟨rfl, by simp⟩
  | some printed => exact runs_modify_bind (runs_pure ⟨rfl, rfl⟩)

/-- Reading the arguments of an item that has no term. -/
theorem runs_readNoTerm {element : Element} (onlyTerm : element.arguments = [.optional "term"])
    (noCounter : element.counter = none) (rest : Input)
    (absent : Input.bracketed engine.scopes.categories '[' ']' engine.input = (.ok none, rest))
    (id : NodeId) :
    Runs (readElementArguments interpreter element id) engine fun _ after =>
      after = { engine with
        input := rest
        document := (engine.document.setAttribute id "term" .none).modify id
          fun node => { node with argumentSource := "" } } := by
  have reads : Runs (readElementArgument interpreter element id true (.optional "term")) engine
      fun result after => result = ("", false) ∧ after = { engine with
        input := rest, document := engine.document.setAttribute id "term" .none } := by
    refine (runs_readBracketed_none absent).bind ?_
    rintro _ _ ⟨rfl, rfl⟩
    exact runs_modify_bind (runs_pure ⟨rfl, rfl⟩)
  have readsAll : Runs (readElementArgumentsFrom interpreter element id true [.optional "term"])
      engine fun result after => result = ("", false) ∧ after = { engine with
        input := rest, document := engine.document.setAttribute id "term" .none } := by
    refine reads.bind ?_
    rintro _ _ ⟨rfl, rfl⟩
    exact runs_pure ⟨rfl, rfl⟩
  unfold readElementArguments
  simp only [onlyTerm, noCounter, ite_self]
  refine readsAll.bind ?_
  rintro _ _ ⟨rfl, rfl⟩
  exact runs_modify rfl

/-- The scope of an item that begins. -/
def itemScopes (engine : Engine) : Scopes :=
  engine.scopes.push (some { node := some engine.document.size, name := "item" }) []

theorem command_ne_document : Level.command ≠ Level.document := by
  simp [Level.command, Level.document]

/-- The scope of an item does not count as that of an enumeration. -/
theorem owners_itemScopes (name : String) :
    engine.itemScopes.owners.countP (opensEnvironment name) =
      engine.scopes.owners.countP (opensEnvironment name) := by
  rw [itemScopes, Scopes.push_of_inner command_ne_document]
  simp [Scopes.owners, Scopes.frames, opensEnvironment]

theorem template?_itemScopes : engine.itemScopes.template? = engine.scopes.template? :=
  funext fun name => Scopes.template?_push command_ne_document name

/-- What a counter is printed as depends on the counters and on what names mean. -/
theorem printed?_congr {other : Engine} (sameCounters : other.counters = engine.counters)
    (sameTemplates : other.scopes.template? = engine.scopes.template?) (name : String) :
    other.printed? name = engine.printed? name := by
  unfold printed?
  rw [sameCounters, sameTemplates]

/-- A node gets the printed form of a counter as its number. -/
theorem runs_numberByCounter (id : NodeId) (name : String) :
    Runs (numberByCounter id name) engine fun _ after =>
      after = { engine with
        references := { engine.references with current := some id }
        log := engine.log ++ ((engine.printed? name).map Prod.snd).getD []
        document := engine.document.modify id fun node =>
          { node with number := (engine.printed? name).map Prod.fst } } := by
  unfold numberByCounter
  apply runs_modify_bind
  refine (runs_printCounter _).bind ?_
  rintro _ _ ⟨rfl, rfl⟩
  exact runs_modify rfl

/-- An item without a term is numbered by the innermost enumeration. -/
theorem runs_numberItem {id : NodeId}
    (noTerm : (engine.document.node id).attributes = [("term", .none)]) :
    Runs (numberItem id) engine fun _ after =>
      after = { engine.stepped with
        references := { engine.references with current := some id }
        log := engine.log ++ ((engine.stepped.printed? engine.itemCounter).map Prod.snd).getD []
        document := engine.document.modify id fun node =>
          { node with number := (engine.stepped.printed? engine.itemCounter).map Prod.fst } } := by
  unfold numberItem
  apply runs_nodeOf
  have isAbsent :
      (((engine.document.node id).attribute? "term").any fun value => !value.isNone) = false := by
    simp [Node.attribute?, noTerm, Value.isNone]
  simp only [isAbsent, Bool.not_false, if_true]
  apply runs_get
  refine (runs_changeCounters _).bind ?_
  rintro _ _ rfl
  exact runs_numberByCounter _ _

/-- The scope and the arguments of an item do not matter for its number. -/
theorem runs_numberItemInside {node : Node} (noTerm : node.attributes = [("term", .none)])
    (rest : Input) :
    Runs (numberItem engine.document.size)
      { engine with
        input := rest
        scopes := engine.itemScopes
        document := (engine.document.create node).2 } fun _ after =>
      after = { engine.stepped with
        input := rest
        scopes := engine.itemScopes
        document := (engine.document.create { node with
          number := (engine.stepped.printed? engine.itemCounter).map Prod.fst }).2
        references := { engine.references with current := some engine.document.size }
        log :=
          engine.log ++ ((engine.stepped.printed? engine.itemCounter).map Prod.snd).getD [] } := by
  have sameCounter :
      itemCounter { engine with
        input := rest
        scopes := engine.itemScopes
        document := (engine.document.create node).2 } = engine.itemCounter := by
    simp only [itemCounter, enumerationDepth, owners_itemScopes]
  have sameText :
      (stepped { engine with
        input := rest
        scopes := engine.itemScopes
        document := (engine.document.create node).2 }).printed? engine.itemCounter =
        engine.stepped.printed? engine.itemCounter :=
    printed?_congr (by simp only [stepped, sameCounter]) template?_itemScopes _
  refine (runs_numberItem (by simpa using noTerm)).mono ?_
  rintro _ _ rfl
  rw [sameCounter, sameText, Document.modify_create_self]
  simp only [stepped, sameCounter]

/-- Beginning an item without a term. -/
theorem runs_invokeItem (name : String) (token : Token) {rest : Input}
    (absent : Input.bracketed engine.scopes.categories '[' ']' engine.input = (.ok none, rest)) :
    Runs (invokeElement interpreter (Builtin.listItem name) token .plain) engine
      fun id after => id = engine.document.size ∧
        after = { engine.itemized name token.position with input := rest } := by
  have sameCategories : engine.itemScopes.categories = engine.scopes.categories := by
    rw [itemScopes, Scopes.push_of_inner command_ne_document]
    rfl
  have closes : engine.itemScopes.popOwner { node := some engine.document.size, name := "item" }
      none = engine.scopes := Scopes.popOwner_push command_ne_document rfl
  rw [Builtin.listItem_eq]
  unfold invokeElement
  refine (runs_createElement _ _ _).bind ?_
  rintro _ _ ⟨rfl, rfl⟩
  apply runs_modify_bind
  simp only [Builtin.item, List.forIn_nil, pure_bind, reduceCtorEq, if_false]
  apply runs_modify_bind
  rw [← sameCategories] at absent
  refine Runs.bind (runs_readNoTerm rfl rfl rest ?_ _) ?_
  · exact absent
  rintro _ _ rfl
  simp only [Document.createElement, Document.setAttribute, Document.modify_create_self]
  by_cases isEnumeration : name = "enumerate"
  · rw [if_pos isEnumeration]
    refine Runs.bind (runs_numberItemInside ?_ rest) ?_
    · simp [Document.element, Node.insertAttribute]
    rintro _ _ rfl
    apply runs_modify_bind
    refine runs_modify_bind (runs_pure ⟨rfl, ?_⟩)
    simp only [Document.modify_create_self, closes, itemized, if_pos isEnumeration, numbered]
    rfl
  · rw [if_neg isEnumeration]
    apply runs_modify_bind
    refine runs_modify_bind (runs_pure ⟨rfl, ?_⟩)
    rw [itemScopes] at closes
    simp only [Document.modify_create_self, closes, itemized, if_neg isEnumeration, bulleted]
    rfl

theorem noted_itemized :
    noted engine.document.size token (engine.itemized name token.position) =
      { engine.itemized name token.position with expansions := 0 } := by
  unfold itemized
  split
  · rw [noted_create rfl rfl]
    cases isPosition : token.position <;>
      simp [numbered, itemNode, depth_ne_zero]
  · rw [noted_create rfl rfl]
    cases isPosition : token.position <;>
      simp [bulleted, itemNode, depth_ne_zero]

namespace Encloses

variable {opened : List OpenScope} {tokens : List Token} {first : Token}

/-- The innermost list says what an item is. -/
theorem command?_item (encloses : Encloses (.environment name :: opened) tokens engine)
    (isList : name ∈ Builtin.listNames) :
    engine.scopes.command? "item" = some (.element (Builtin.listItem name)) := by
  have inner := encloses.inner
  rw [Scopes.command?, Scopes.frames]
  generalize engine.scopes.inner = frames at inner
  cases inner with
  | cons fits _ =>
      obtain ⟨id, rfl⟩ := fits
      simp [Scopes.commandIn, plainFrame, Table.get?_ofList, Builtin.locals_enclosure, isList]

/-- An item begins, if what stands behind it is not its term. -/
theorem runs_item (idles : Idles interpreter) (isList : name ∈ Builtin.listNames)
    (encloses : Encloses (.environment name :: opened) (.control "item" :: tokens) engine)
    {behind : List Token} (left : tokens.dropWhile Input.isSpace = first :: behind)
    (absent : first.isChar '[' = false) (steps : Nat) :
    Runs (nextItemWithin interpreter (steps + 1)) engine fun result after =>
      ∃ item, result = some item ∧ item = .node engine.document.size ∧
        ∃ position, Comes (engine.itemized name position) (.environment name :: opened)
          (first :: behind) after := by
  refine encloses.runs_change idles rfl (encloses.command?_item isList) rfl ?_ steps
  intro token rest _ reads
  rw [← reads.ahead] at left
  obtain ⟨unread, isAbsent, following⟩ := Input.bracketed_of_ahead left absent
  rw [← reads.categories] at isAbsent
  refine (runs_invokeItem name token isAbsent).bind ?_
  rintro _ _ ⟨rfl, rfl⟩
  refine runs_pure ⟨_, rfl, rfl, ?_⟩
  have isAfter : noted engine.document.size token
      { engine.itemized name token.position with input := unread } =
        { engine.itemized name token.position with input := unread, expansions := 0 } :=
    congrArg (fun after : Engine => { after with input := unread }) noted_itemized
  rw [itemized_input engine name token.position rest]
  refine ⟨isAfter, ?_⟩
  exact (congrArg (Encloses _ _) isAfter).mpr
    (reads.change following (by simpa using reads.inner) reads.known (by simp) (by simp))

end Encloses

end Engine

end TexTree
