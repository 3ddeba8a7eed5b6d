import TexTree.Proofs.Engine.Enclosures

/-!
# Groups, environments and formulas as changes of the engine

The commands that open and close groups, environments and formulas succeed wherever they
may stand, and each of them changes the engine in a way of its own.  This module says for
each of them which change that is: which node is created, which scopes are open behind it,
and what becomes of the open environments and formulas, of the depth of lists and of the
counters.

The changes are functions of the engine alone, so that what holds behind a command is read
off its change.
-/

namespace TexTree

namespace Document

/-- A node that has just been created can be changed at once. -/
@[simp] theorem modify_create_self (document : Document) (node : Node) (change : Node → Node) :
    (document.create node).2.modify document.size change = (document.create (change node)).2 := by
  simp only [create, modify, size, Document.mk.injEq]
  ext id _ inside
  · simp
  · simp only [Array.size_push] at inside
    simp only [Array.getElem_modify, Array.getElem_push]
    grind

end Document

namespace Scopes

variable {scopes : Scopes} {owner : FrameOwner} {locals : List (String × Command)}

/-- Only the document closes scopes when it begins. -/
theorem push_of_inner (isInner : owner.level ≠ Level.document) :
    scopes.push (some owner) locals =
      { scopes with
        inner := ⟨some owner, .ofList locals, .empty, scopes.categories⟩ :: scopes.inner } := by
  simp [push, isInner, Frame.fresh]

/-- The scope of an element that ends at once leaves no trace. -/
theorem popOwner_push (isInner : owner.level ≠ Level.document) (isSome : owner.node.isSome) :
    (scopes.push (some owner) locals).popOwner owner none = scopes := by
  have ends : endsAt owner ⟨some owner, .ofList locals, .empty, scopes.categories⟩ = true := by
    simp [endsAt, isSome]
  have notParent :
      isParent owner none ⟨some owner, .ofList locals, .empty, scopes.categories⟩ = false := by
    simp [isParent]
  rw [push_of_inner isInner, popOwner]
  simp [closeFrames, ends, notParent]

/-- A scope in which nothing is defined does not matter for what names mean. -/
theorem template?_push (isInner : owner.level ≠ Level.document) (name : String) :
    (scopes.push (some owner) []).template? name = scopes.template? name := by
  rw [push_of_inner isInner]
  rfl

end Scopes

namespace Engine

variable {start engine between after : Engine} {name : String} {token : Token}
  {interpreter : Interpreter}

/-! ## Environments -/

/-- The node that an environment begins with. -/
def openingNode (name : String) (position : Option Position) (depth : Nat) : Node :=
  { draftOf (Builtin.enclosure name) .opening with position, depth }

/-- The scopes behind the beginning of an environment. -/
def scopesInside (engine : Engine) (name : String) : Scopes :=
  engine.scopes.push (some (ownerOf (Builtin.enclosure name) .opening engine.document.size))
    (Builtin.enclosure name).locals

/-- The counters behind the beginning of an enumeration at the given depth: those of the
enumeration and of all further ones inside of it are zero. -/
def restarted (counters : Counters) (depth : Nat) : Counters :=
  (enumerationCounters.drop (depth - 1)).foldl
    (fun counters counter => (counters.set? counter 0).getD counters) counters

/-- An environment has begun. -/
def opened (engine : Engine) (name : String) (position : Option Position) : Engine :=
  let scopes := engine.scopesInside name
  { engine with
    document := (engine.document.create (openingNode name position scopes.depth)).2
    scopes
    environments := name :: engine.environments
    listDepth :=
      if name ∈ Builtin.listNames then min (engine.listDepth + 1) maxListDepth
      else engine.listDepth
    counters :=
      if name = "enumerate" then
        restarted engine.counters (scopes.owners.countP (opensEnvironment "enumerate"))
      else engine.counters }

theorem runs_changeCounters (change : Counters → Option Counters) :
    Runs (changeCounters change) engine fun _ after =>
      after = { engine with counters := (change engine.counters).getD engine.counters } := by
  refine runs_modifyGet ?_
  cases change engine.counters <;> rfl

/-- Counters are put back to zero one after the other. -/
theorem runs_restart (names : List String) :
    Runs (forIn names PUnit.unit fun counter _ => do
        let _ ← changeCounters (·.set? counter 0)
        pure (ForInStep.yield PUnit.unit)) engine fun _ after =>
      after = { engine with
        counters := names.foldl
          (fun counters counter => (counters.set? counter 0).getD counters) engine.counters } := by
  induction names generalizing engine with
  | nil => exact runs_pure rfl
  | cons first rest ih =>
      rw [List.forIn_cons]
      have one : Runs (do
          let _ ← changeCounters (·.set? first 0)
          pure (ForInStep.yield PUnit.unit)) engine fun result between =>
          result = .yield PUnit.unit ∧ between = { engine with
            counters := (engine.counters.set? first 0).getD engine.counters } := by
        refine (runs_changeCounters (·.set? first 0)).bind ?_
        rintro _ between rfl
        exact runs_pure ⟨rfl, rfl⟩
      refine one.bind ?_
      rintro _ _ ⟨rfl, rfl⟩
      exact ih

/-- An element without arguments reads nothing. -/
theorem runs_readNoArguments {element : Element} (noArguments : element.arguments = [])
    (noCounter : element.counter = none) (id : NodeId) :
    Runs (readElementArguments interpreter element id) engine fun _ after =>
      after = { engine with
        document := engine.document.modify id fun node => { node with argumentSource := "" } } := by
  unfold readElementArguments
  simp only [noArguments, noCounter, ite_self]
  exact runs_modify rfl

/-- A list that begins is counted, and the numbers of an enumeration start anew. -/
theorem runs_countOpening {id : NodeId} (isName : (engine.document.node id).name = name) :
    Runs (countList id .opening) engine fun _ after =>
      after = { engine with
        listDepth := min (engine.listDepth + 1) maxListDepth
        counters :=
          if name = "enumerate" then restarted engine.counters engine.enumerationDepth
          else engine.counters } := by
  unfold countList
  apply runs_nodeOf
  rw [isName]
  apply runs_modify_bind
  by_cases isEnumeration : name = "enumerate"
  · simp only [isEnumeration, beq_self_eq_true, if_true]
    apply runs_get
    refine (runs_restart _).bind ?_
    rintro _ _ rfl
    exact runs_pure rfl
  · simp only [beq_eq_false_iff_ne.mpr isEnumeration, Bool.false_eq_true, if_false,
      if_neg isEnumeration]
    exact runs_pure rfl

/-- Beginning an environment without arguments. -/
theorem runs_invokeOpening (name : String) (token : Token) :
    Runs (invokeElement interpreter (Builtin.enclosure name) token .opening) engine
      fun id after => id = engine.document.size ∧ after = engine.opened name token.position := by
  unfold invokeElement
  refine (runs_createElement _ _ _).bind ?_
  rintro _ _ ⟨rfl, rfl⟩
  apply runs_modify_bind
  simp only [Builtin.fixed_enclosure, List.forIn_nil, pure_bind]
  apply runs_modify_bind
  apply runs_modify_bind
  refine (runs_readNoArguments (by simp) (by simp) _).bind ?_
  rintro _ _ rfl
  simp only [Document.createElement, Document.modify_create_self]
  rw [Builtin.hook_enclosure, Builtin.enclosureHook?]
  by_cases isList : name ∈ Builtin.listNames
  · rw [if_pos isList]
    refine Runs.bind (runs_countOpening (show _ = name from ?_)) ?_
    · simp [Document.element]
    rintro _ _ rfl
    refine runs_modify_bind (runs_pure ⟨rfl, ?_⟩)
    simp [opened, openingNode, scopesInside, isList, draftOf, ownerOf, enumerationDepth,
      Document.element]
  · have other : name ≠ "enumerate" := by
      rintro rfl
      exact isList (by decide)
    rw [if_neg isList]
    -- The hook of the document waits for its end.
    by_cases isDocument : name = "document"
    · rw [if_pos isDocument]
      refine runs_modify_bind (runs_pure ⟨rfl, ?_⟩)
      simp [opened, openingNode, scopesInside, isList, other, draftOf, ownerOf, Document.element]
    · rw [if_neg isDocument]
      refine runs_modify_bind (runs_pure ⟨rfl, ?_⟩)
      simp [opened, openingNode, scopesInside, isList, other, draftOf, ownerOf, Document.element]

/-! ## Breaks between paragraphs -/

/-- The node of a break between paragraphs. -/
def breakNode (position : Option Position) (depth : Nat) : Node :=
  { draftOf Builtin.paragraphBreak .plain with position, depth }

/-- A paragraph has ended. -/
def parted (engine : Engine) (position : Option Position) : Engine :=
  { engine with
    document := (engine.document.create (breakNode position engine.scopes.depth)).2 }

/-- A break between paragraphs changes nothing but the document. -/
theorem runs_invokeBreak (token : Token) :
    Runs (invokeElement interpreter Builtin.paragraphBreak token .plain) engine
      fun id after => id = engine.document.size ∧ after = engine.parted token.position := by
  have closes : (engine.scopes.push
      (some (ownerOf Builtin.paragraphBreak .plain engine.document.size)) []).popOwner
        (ownerOf Builtin.paragraphBreak .plain engine.document.size) none = engine.scopes :=
    Scopes.popOwner_push (by simp [ownerOf, Builtin.paragraphBreak, Level.par, Level.document]) rfl
  unfold invokeElement
  refine (runs_createElement _ _ _).bind ?_
  rintro _ _ ⟨rfl, rfl⟩
  apply runs_modify_bind
  simp only [Builtin.paragraphBreak, List.forIn_nil, pure_bind, reduceCtorEq, if_false]
  apply runs_modify_bind
  refine (runs_readNoArguments rfl rfl _).bind ?_
  rintro _ _ rfl
  apply runs_modify_bind
  refine runs_modify_bind (runs_pure ⟨rfl, ?_⟩)
  simp only [Document.createElement, Document.modify_create_self]
  rw [ownerOf] at closes
  simp only [Builtin.paragraphBreak] at closes
  simp only [closes, parted, breakNode, draftOf, Builtin.paragraphBreak]
  rfl

/-! ## Ends of environments -/

/-- The node that an environment ends with. -/
def closingNode (name : String) (position : Option Position) (depth : Nat) : Node :=
  { Document.element name Level.environment .closing with position, depth }

/-- The level of the innermost environment with the given name that is open. -/
def levelOf (engine : Engine) (name : String) : Level :=
  (engine.scopes.owners.find? (opensEnvironment name)).elim Level.environment FrameOwner.level

/-- The scopes behind the end of an environment. -/
def scopesOutside (engine : Engine) (name : String) : Scopes :=
  engine.scopes.popOwner { node := none, name, mode := .closing } none

/-- An environment has ended. -/
def closed (engine : Engine) (name : String) (position : Option Position) : Engine :=
  let scopes := engine.scopesOutside name
  { engine with
    document := (engine.document.create
      { closingNode name position scopes.depth with level := engine.levelOf name }).2
    scopes
    environments := engine.environments.drop 1
    listDepth := if name ∈ Builtin.listNames then engine.listDepth - 1 else engine.listDepth }

/-- The node at the end of an environment is made, and its scopes are closed. -/
theorem runs_closeEnvironment (name : String) :
    Runs (closeEnvironment name) engine fun id after =>
      id = engine.document.size ∧
        after = { engine.closed name none with listDepth := engine.listDepth } := by
  unfold closeEnvironment
  apply runs_get
  refine (runs_createElement _ _ _).bind ?_
  rintro _ _ ⟨rfl, rfl⟩
  apply runs_modify_bind
  apply runs_modify_bind
  refine runs_modify_bind (runs_pure ⟨rfl, ?_⟩)
  simp only [Document.createElement, Document.modify_create_self]
  rfl

/-- Ending an environment inside of the document. -/
theorem runs_invokeClosing (other : name ≠ "document") (token : Token) :
    Runs (invokeElement interpreter (Builtin.enclosure name) token .closing) engine
      fun id after => id = engine.document.size ∧ after = engine.closed name none := by
  unfold invokeElement
  simp only [if_true, Builtin.name_enclosure]
  refine (runs_closeEnvironment name).bind ?_
  rintro _ _ ⟨rfl, rfl⟩
  rw [Builtin.hook_enclosure, Builtin.enclosureHook?]
  by_cases isList : name ∈ Builtin.listNames
  · rw [if_pos isList]
    refine runs_modify_bind (runs_pure ⟨rfl, ?_⟩)
    simp only [closed, if_pos isList]
  · rw [if_neg isList, if_neg other]
    refine runs_pure ⟨rfl, ?_⟩
    simp only [closed, if_neg isList]

/-- Ending the document ends the input. -/
theorem runs_invokeDocumentEnd (token : Token) :
    Runs (invokeElement interpreter (Builtin.enclosure "document") token .closing) engine
      fun id after => id = engine.document.size ∧
        after = { engine.closed "document" none with input := engine.input.endInput } := by
  have notList : "document" ∉ Builtin.listNames := by decide
  unfold invokeElement
  simp only [if_true, Builtin.name_enclosure]
  refine (runs_closeEnvironment "document").bind ?_
  rintro _ _ ⟨rfl, rfl⟩
  rw [Builtin.hook_enclosure, Builtin.enclosureHook?, if_neg notList, if_pos rfl]
  refine runs_modify_bind (runs_pure ⟨rfl, ?_⟩)
  simp only [closed, if_neg notList]

/-! ## Formulas -/

/-- A formula has been opened by a delimiter. -/
def formulaOpened (engine : Engine) (name delimiter : String) (position : Option Position) :
    Engine :=
  let scopes := engine.scopesInside name
  { engine.opened name position with
    mathStack := name :: engine.mathStack
    document := (engine.document.create
      { openingNode name position scopes.depth with argumentSource := delimiter }).2 }

/-- A formula has been closed by a delimiter. -/
def formulaClosed (engine : Engine) (name : String) (position : Option Position) : Engine :=
  { engine.closed name position with mathStack := engine.mathStack.drop 1 }

/-- A delimiter opens a formula. -/
theorem runs_openByDelimiter (isFormula : name ∈ Builtin.formulaNames) (token : Token)
    (delimiter : String) :
    Runs (openMath interpreter token name delimiter) engine fun id after =>
      id = engine.document.size ∧
        after = engine.formulaOpened name delimiter token.position := by
  unfold openMath
  apply runs_modify_bind
  rw [Builtin.mathEnvironment_eq isFormula]
  refine (runs_invokeOpening name token).bind ?_
  rintro _ _ ⟨rfl, rfl⟩
  refine runs_modify_bind (runs_pure ⟨rfl, ?_⟩)
  simp only [opened, Document.modify_create_self]
  rfl

/-- A delimiter closes the formula that the last one has opened. -/
theorem runs_closeByDelimiter (isFormula : name ∈ Builtin.formulaNames)
    (inside : engine.mathStack.head? = some name) (token : Token) :
    Runs (closeMath interpreter token name) engine fun id after =>
      id = engine.document.size ∧ after = engine.formulaClosed name none := by
  have other := Builtin.ne_document_of_mem isFormula
  have isInside : engine.isInMath name = true := by simp [isInMath, inside]
  unfold closeMath
  apply runs_get
  simp only [isInside, Bool.not_true, Bool.false_eq_true, if_false]
  apply runs_modify_bind
  rw [Builtin.mathEnvironment_eq isFormula]
  exact runs_invokeClosing other token

/-! ## Groups -/

/-- A group has been opened. -/
def grouped (engine : Engine) (position : Option Position) : Engine :=
  let scopes := engine.scopes.push none []
  { engine with
    document := (engine.document.create
      { groupNode with position, depth := scopes.depth }).2
    scopes }

/-- A group has been closed. -/
def ungrouped (engine : Engine) (position : Option Position) : Engine :=
  { engine with
    document := (engine.document.create
      { groupEndNode with position, depth := engine.scopes.pop.depth }).2
    scopes := engine.scopes.pop }

/-- A node has been noted to come from a token. -/
theorem noted_create {engine : Engine} {document : Document} {node : Node} {id : NodeId}
    (isNew : id = document.size) (created : engine.document = (document.create node).2)
    (token : Token) :
    noted id token engine = { engine with
      expansions := 0
      document := (document.create { node with
        position := node.position <|> token.position
        depth := if node.depth = 0 then engine.scopes.depth else node.depth }).2 } := by
  subst isNew
  rw [noted, created, Document.modify_create_self]

theorem depth_ne_zero (scopes : Scopes) : scopes.depth ≠ 0 := Nat.succ_ne_zero _

theorem noted_opened : noted engine.document.size token (engine.opened name token.position) =
    { engine.opened name token.position with expansions := 0 } := by
  rw [noted_create rfl rfl]
  cases isPosition : token.position <;>
    simp [opened, openingNode, depth_ne_zero]

theorem noted_closed : noted engine.document.size token (engine.closed name none) =
    { engine.closed name token.position with expansions := 0 } := by
  rw [noted_create rfl rfl]
  simp [closed, closingNode, depth_ne_zero]

theorem noted_parted : noted engine.document.size token (engine.parted token.position) =
    { engine.parted token.position with expansions := 0 } := by
  rw [noted_create rfl rfl]
  cases isPosition : token.position <;>
    simp [parted, breakNode, depth_ne_zero]

theorem noted_formulaOpened (delimiter : String) :
    noted engine.document.size token (engine.formulaOpened name delimiter token.position) =
      { engine.formulaOpened name delimiter token.position with expansions := 0 } := by
  rw [noted_create rfl rfl]
  cases isPosition : token.position <;>
    simp [formulaOpened, opened, openingNode, depth_ne_zero]

theorem noted_formulaClosed :
    noted engine.document.size token (engine.formulaClosed name none) =
      { engine.formulaClosed name token.position with expansions := 0 } := by
  rw [noted_create rfl rfl]
  simp [formulaClosed, closed, closingNode, depth_ne_zero]

/-- A brace opens a group. -/
theorem runs_openGroup (isBrace : token.category = .beginGroup) :
    Runs (openGroup token) engine fun id after =>
      id = engine.document.size ∧
        noted id token after = { engine.grouped token.position with expansions := 0 } := by
  have unnamed : token.isNamed "begingroup" = false := by
    simp [Token.isNamed, Token.isControl, isBrace]
  unfold openGroup
  simp only [unnamed, Bool.false_eq_true, if_false]
  refine (runs_createElement _ _ _).bind ?_
  rintro _ _ ⟨rfl, rfl⟩
  apply runs_modify_bind
  refine runs_modify_bind (runs_pure ⟨rfl, ?_⟩)
  simp only [Document.createElement, Document.modify_create_self]
  rw [noted_create rfl rfl]
  simp [grouped, groupNode, Document.element]

/-- A brace closes a group. -/
theorem runs_closeGroup (isBrace : token.category = .endGroup)
    (isOpen : engine.scopes.hasOpenGroup = true) :
    Runs (closeGroup token) engine fun id after =>
      id = engine.document.size ∧
        noted id token after = { engine.ungrouped token.position with expansions := 0 } := by
  have unnamed : token.isNamed "endgroup" = false := by
    simp [Token.isNamed, Token.isControl, isBrace]
  unfold closeGroup
  simp only [unnamed, Bool.false_eq_true, if_false]
  apply runs_get
  simp only [isOpen, Bool.not_true, Bool.false_eq_true, if_false]
  apply runs_modify_bind
  refine (runs_createElement _ _ _).mono ?_
  rintro _ _ ⟨rfl, rfl⟩
  refine ⟨rfl, ?_⟩
  rw [noted_create rfl rfl]
  simp [ungrouped, groupEndNode, Document.element]

end Engine

end TexTree
