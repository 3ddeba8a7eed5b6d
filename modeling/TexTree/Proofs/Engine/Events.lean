import TexTree.Proofs.Engine.Invoking

/-!
# The commands of plain documents

Each command of a plain document produces one node.  This module says which
meaning it has, which node it produces, and which frames are open behind it.
-/

namespace TexTree

namespace Builtin

/-- The commands whose argument is their content. -/
def selfNames : List String := fontNames ++ ["hbox", "vbox", "footnote"]

/-- The environments of plain documents. -/
def environmentNames : List String := "itemize" :: blockNames

/-- The built-in meaning of a name. -/
def meaning? (name : String) : Option Command := (Table.ofList commands).get? name

theorem meaning?_eq (name : String) :
    meaning? name = (commands.reverse.find? fun entry => entry.1 == name).map Prod.snd :=
  Table.get?_ofList commands name

theorem meaning?_bgroup :
    meaning? "bgroup" = some (.primitive "bgroup" (.construction .openGroup)) := by
  rw [meaning?_eq]
  rfl

theorem meaning?_egroup :
    meaning? "egroup" = some (.primitive "egroup" (.construction .closeGroup)) := by
  rw [meaning?_eq]
  rfl

theorem meaning?_begin :
    meaning? "begin" = some (.primitive "begin" (.construction .beginEnvironment)) := by
  rw [meaning?_eq]
  rfl

theorem meaning?_end :
    meaning? "end" = some (.primitive "end" (.construction .endEnvironment)) := by
  rw [meaning?_eq]
  rfl

theorem meaning?_mathShift :
    meaning? "active::$" = some (.primitive "active::$" (.construction .mathShift)) := by
  rw [meaning?_eq]
  rfl

/-- Each element is the meaning of its name. -/
theorem meaning?_element {element : Element} (member : element ∈ elements) {name : String}
    (isNamed : element.name = name) : meaning? name = some (.element element) := by
  subst isNamed
  have distinct : (elements.map fun element => element.name).Nodup := by decide
  have unique : ∀ list : List Element, (list.map fun element => element.name).Nodup →
      element ∈ list → list.find? (fun other => other.name == element.name) = some element := by
    intro list
    induction list with
    | nil => simp
    | cons first rest ih =>
        intro isDistinct listed
        rw [List.map_cons, List.nodup_cons] at isDistinct
        rcases List.mem_cons.mp listed with rfl | later
        · simp
        · have different : first.name ≠ element.name := by
            intro same
            exact isDistinct.1 (same ▸ List.mem_map_of_mem later)
          rw [List.find?_cons_of_neg (by simpa using different)]
          exact ih isDistinct.2 later
  have found : (elements.reverse.map fun other => (other.name, Command.element other)).find?
      (fun entry => entry.1 == element.name) = some (element.name, .element element) := by
    have inReverse := unique elements.reverse (by
      rw [List.map_reverse, List.nodup_reverse]
      exact distinct) (List.mem_reverse.mpr member)
    rw [List.find?_map]
    simpa [Function.comp_def] using inReverse
  rw [meaning?_eq, commands, List.reverse_append, List.find?_append, ← List.map_reverse, found]
  rfl

/-- An element that only opens a scope of its own. -/
theorem simple_of_mem {element : Element} (member : element ∈ elements)
    (inner : element.level ≠ Level.document) (unfixed : element.fixed.isEmpty)
    (locals : element.locals.isEmpty) (hook : element.hook = none) : Engine.Simple element where
  regular := regular_elements element member
  unfixed := List.isEmpty_iff.mp unfixed
  inner := inner
  locals := .inl (List.isEmpty_iff.mp locals)
  hook := .inl hook

/-- A command whose argument is its content. -/
structure IsSelf (name : String) (element : Element) : Prop where
  meaning : meaning? name = some (.element element)
  isNamed : element.name = name
  simple : Engine.Simple element
  level : element.level = Level.command
  digest : element.digest = .nothing
  arguments : element.arguments = [.content] ∨
    element.arguments = [.optional "mark", .content]

theorem exists_isSelf {name : String} (isSelf : name ∈ selfNames) :
    ∃ element, IsSelf name element := by
  have checked : ∀ name ∈ selfNames, ∃ element ∈ elements, element.name = name ∧
      element.level = Level.command ∧ element.fixed.isEmpty ∧ element.locals.isEmpty ∧
      element.hook = none ∧ element.digest = .nothing ∧
      (element.arguments = [.content] ∨ element.arguments = [.optional "mark", .content]) := by
    decide
  obtain ⟨element, member, rfl, level, unfixed, locals, hook, digest, arguments⟩ :=
    checked name isSelf
  refine ⟨element, meaning?_element member rfl, rfl, ?_, level, digest, arguments⟩
  exact simple_of_mem member (by simp [level, Level.command, Level.document]) unfixed locals hook

/-- An environment without arguments.  Only a list knows how to begin an item. -/
structure IsEnvironment (name : String) (element : Element) : Prop where
  meaning : meaning? name = some (.element element)
  isNamed : element.name = name
  simple : Engine.Simple element
  level : element.level = Level.environment
  digest : element.digest = .environment
  arguments : element.arguments = []
  block : element.block = true
  isEnvironment : element.isEnvironment = true
  items : name = "itemize" → element.locals = [("item", .element item)]

theorem environment_ne_document : Level.environment ≠ Level.document := by
  simp [Level.environment, Level.document]

theorem exists_isEnvironment {name : String} (isEnvironment : name ∈ environmentNames) :
    ∃ element, IsEnvironment name element := by
  rcases List.mem_cons.mp isEnvironment with rfl | isBlock
  · have member : list "itemize" item ∈ elements := by simp [elements]
    refine ⟨list "itemize" item, meaning?_element member rfl, rfl, ?_, rfl, rfl, rfl, rfl, rfl,
      fun _ => rfl⟩
    exact ⟨regular_elements _ member, rfl, environment_ne_document, .inr rfl, .inr rfl⟩
  · have other : name ≠ "itemize" := by
      rintro rfl
      revert isBlock
      decide
    have member : blockEnvironment name ∈ elements := by
      simp only [elements, List.mem_append, List.mem_map]
      exact .inl (.inl (.inl (.inl (.inr ⟨name, isBlock, rfl⟩))))
    refine ⟨blockEnvironment name, meaning?_element member rfl, rfl, ?_, rfl, rfl, rfl, rfl, rfl,
      fun same => absurd same other⟩
    exact ⟨regular_elements _ member, rfl, environment_ne_document, .inl rfl, .inl rfl⟩

/-- A command without arguments that opens no environment. -/
structure IsBare (name : String) (element : Element) : Prop where
  meaning : meaning? name = some (.element element)
  isNamed : element.name = name
  simple : Engine.Simple element
  arguments : element.arguments = []

/-- The commands without arguments. -/
def bareNames : List String := "par" :: declarationNames

theorem exists_isBare {name : String} (isBare : name ∈ bareNames) :
    ∃ element, IsBare name element := by
  have checked : ∀ name ∈ bareNames, ∃ element ∈ elements, element.name = name ∧
      (element.level = Level.par ∨ element.level = Level.command) ∧ element.fixed.isEmpty ∧
      element.locals.isEmpty ∧ element.hook = none ∧ element.arguments = [] := by
    decide
  obtain ⟨element, member, rfl, level, unfixed, locals, hook, arguments⟩ := checked name isBare
  have inner : element.level ≠ Level.document := by
    rcases level with equal | equal <;> simp [equal, Level.command, Level.document, Level.par]
  exact ⟨element, meaning?_element member rfl, rfl,
    simple_of_mem member inner unfixed locals hook, arguments⟩

/-- A sectioning command. -/
structure IsHeading (name : String) (element : Element) : Prop where
  meaning : meaning? name = some (.element element)
  isNamed : element.name = name
  simple : Engine.Simple element
  arguments : element.arguments = [.star, .optional "toc", .required "title"]

theorem exists_isHeading {name : String} (isSection : name ∈ sectionNames) :
    ∃ element, IsHeading name element := by
  obtain ⟨⟨name, level⟩, listed, rfl⟩ := List.mem_map.mp isSection
  have member : sectionElement name level ∈ elements := by
    simp only [elements, List.mem_append, List.mem_map]
    exact .inl (.inl (.inl (.inl (.inl (.inl (.inr ⟨_, listed, rfl⟩))))))
  have inner : ∀ entry ∈ sectionLevels, entry.2 ≠ Level.document := by decide
  exact ⟨_, meaning?_element member rfl, rfl,
    simple_of_mem member (inner _ listed) rfl rfl rfl, rfl⟩

end Builtin

namespace Engine

variable {β : Type} {gauge : Gauge β} {engine : Engine} {frames : List Frame}
  {tokens : List Token} {interpreter : Interpreter}

/-- A keyword is looked up. -/
theorem Reading.runs_lookup (reading : Reading frames tokens engine) {name : String}
    (isKeyword : name ∈ Builtin.keywords) {command : Command}
    (found : Builtin.meaning? name = some command) :
    Runs (lookup name) engine fun result after => result = command ∧ after = engine :=
  Engine.runs_lookup ((reading.command? isKeyword).trans found)

/-- What was done before a node was made concerns other nodes only. -/
theorem Drafting.since {start between : Engine} {id : NodeId} {data : Node} {content : List β}
    (drafting : Drafting gauge between id data content frames tokens engine)
    (steady : start.Steady) (grown : start.Grown between)
    (formulas : between.mathStack = start.mathStack) :
    Drafting gauge start id data content frames tokens engine :=
  ⟨drafting.making.since steady grown, drafting.essence, drafting.content, drafting.reading,
    drafting.formulas.trans formulas⟩

/-! ## Groups -/

/-- The node of a group. -/
def groupNode : Node := { Document.element "bgroup" Level.command .plain with digest := .group }

theorem Steady.runs_openGroup (gauge : Gauge β) (steady : engine.Steady)
    (reading : Reading frames tokens engine) {token : Token}
    (isBrace : token.category = .beginGroup) :
    Runs (openGroup token) engine fun node after =>
      Drafting gauge engine node groupNode [] (plainFrame none [] :: frames) tokens after ∧
        after.document.children node = [] := by
  have unnamed : token.isNamed "begingroup" = false := by
    simp [Token.isNamed, Token.isControl, isBrace]
  unfold openGroup
  simp only [unnamed, Bool.false_eq_true, if_false]
  refine (steady.runs_createElement gauge reading _ _ _).bind ?_
  rintro node between ⟨drafting, childless⟩
  apply runs_modify_bind
  have drafted := drafting.define childless (fun inner => { inner with digest := .group })
    (fun _ => rfl) (fun _ => rfl) (fun _ => rfl) (fun _ _ => rfl) (fun _ => rfl) (fun _ => rfl)
    (by simp) (by simp [Document.element, Level.command, Level.par])
  have noOwner : ∀ opener : FrameOwner, none = some opener → opener.level ≠ Level.document := by
    simp
  refine ((drafted.reading.runs_pushScope noOwner (.inl rfl)).sat
    (growing_pushScope none (by simp) _ drafted.steady)).bind ?_
  rintro _ after ⟨moved, grown⟩
  refine runs_pure ⟨drafted.move grown moved, ?_⟩
  rw [moved.document]
  refine (Document.children_modify _ ?_ between.document node node).trans childless
  exact fun _ => rfl

/-- The node at the end of a group. -/
def groupEndNode : Node := Document.element "egroup" Level.command .plain

theorem Steady.runs_closeGroup (gauge : Gauge β) {frame : Frame} (steady : engine.Steady)
    (reading : Reading (frame :: frames) tokens engine) (isGroup : frame.owner = none)
    {token : Token} (isBrace : token.category = .endGroup) :
    Runs (closeGroup token) engine fun node after =>
      Drafting gauge engine node groupEndNode [] frames tokens after := by
  have unnamed : token.isNamed "endgroup" = false := by
    simp [Token.isNamed, Token.isControl, isBrace]
  have isOpen : engine.scopes.hasOpenGroup = true := by
    simp [Scopes.hasOpenGroup, reading.inner, Frame.isGroup, isGroup]
  have popped : engine.scopes.pop = { engine.scopes with inner := frames } := by
    simp [Scopes.pop, reading.inner, Frame.isGroup, isGroup]
  unfold closeGroup
  simp only [unnamed, Bool.false_eq_true, if_false]
  apply runs_get
  simp only [isOpen, Bool.not_true, Bool.false_eq_true, if_false]
  apply runs_modify_bind
  rw [popped]
  have moved : Moved engine frames tokens
      { engine with scopes := { engine.scopes with inner := frames } } :=
    reading.popScopes rfl rfl fun other => List.mem_cons_of_mem frame
  have grown : engine.Grown { engine with scopes := { engine.scopes with inner := frames } } := by
    refine steady.same rfl (fun regular => ?_) rfl rfl
    rw [← popped]
    exact regular.pop
  refine (grown.steady.runs_createElement gauge moved.reading _ _ _).mono ?_
  rintro node after ⟨drafting, _⟩
  exact drafting.since steady grown rfl

/-! ## Environments -/

/-- A frame belongs to an open environment. -/
def OpenedBy (name : String) (frame : Frame) : Prop :=
  ∃ owner, frame.owner = some owner ∧ owner.name = name ∧ owner.mode = .opening ∧
    owner.level = Level.environment

/-- The node at the end of an environment. -/
def environmentEndNode (name : String) : Node :=
  Document.element name Level.environment .closing

theorem Steady.runs_closeEnvironment (gauge : Gauge β) {frame : Frame} {name : String}
    (steady : engine.Steady)
    (reading : Reading (frame :: frames) tokens engine) (isOpen : OpenedBy name frame) :
    Runs (closeEnvironment name) engine fun node after =>
      Drafting gauge engine node
        { environmentEndNode name with depth := frames.length + 1 } [] frames tokens after := by
  obtain ⟨owner, owned, isNamed, opening, level⟩ := isOpen
  have found : engine.scopes.owners.find? (opensEnvironment name) = some owner := by
    simp [Scopes.owners, Scopes.frames, reading.inner, owned, opensEnvironment, isNamed, opening]
  unfold closeEnvironment
  apply runs_get
  rw [found]
  dsimp only [Option.elim_some]
  rw [level]
  refine (steady.runs_createElement gauge reading _ _ _).bind ?_
  rintro node between ⟨drafting, _⟩
  have ends : Scopes.endsAt { node := none, name, mode := .closing } frame = true := by
    simp [Scopes.endsAt, owned, isNamed]
  refine ((drafting.reading.runs_popOwner ends).sat
    (growing_popOwner _ between drafting.steady)).bind ?_
  rintro _ popped ⟨moved, grown⟩
  replace drafting := drafting.move grown moved
  apply runs_modify_bind
  have left : Moved popped frames tokens
      { popped with environments := popped.environments.drop 1 } :=
    drafting.reading.same rfl rfl rfl rfl rfl
  have stillGrown : popped.Grown { popped with environments := popped.environments.drop 1 } :=
    drafting.steady.same rfl (fun regular => regular) rfl rfl
  refine (drafting.move stillGrown left).runs_recordDepth.bind ?_
  intro _ after done
  exact runs_pure done

/-- The tokens of a name. -/
def nameTokens (name : String) : List Token := name.toList.map Token.letter

/-- A name in braces before other tokens. -/
def braced (name : String) (tokens : List Token) : List Token :=
  .beginGroup :: (nameTokens name ++ .endGroup :: tokens)

theorem braces_nameTokens (name : String) : Input.braces 0 (nameTokens name) = some 0 := by
  unfold nameTokens
  induction name.toList with
  | nil => rfl
  | cons first rest ih =>
      rw [List.map_cons, Input.braces_other (by simp [Token.letter, Token.ofChar])
        (by simp [Token.letter, Token.ofChar]), ih]

/-- The name of an environment is read. -/
theorem Reading.runs_name {name : String} (reading : Reading frames (braced name tokens) engine)
    (isEnvironment : name ∈ Builtin.environmentNames) :
    Runs readName engine fun result after => result = name ∧ Moved engine frames tokens after := by
  have trimmed : ∀ name ∈ Builtin.environmentNames,
      Text.trim (Token.displayList (nameTokens name)) = name := by decide
  have reads := reading.runs_readName rfl rfl (braces_nameTokens name)
  rw [trimmed name isEnvironment] at reads
  exact reads

/-- Beginning an environment opens its node and its scope. -/
theorem Steady.runs_beginEnvironment (gauge : Gauge β) {name : String} (steady : engine.Steady)
    (reading : Reading frames (braced name tokens) engine)
    (isEnvironment : name ∈ Builtin.environmentNames) {element : Element}
    (known : Builtin.IsEnvironment name element) (token : Token) :
    Runs (beginEnvironment interpreter token) engine fun node after =>
      Drafting gauge engine node
        { draftOf element .opening with depth := frames.length + 2 } []
        (frameOf element .opening node :: frames) tokens after := by
  have facts : ∀ name ∈ Builtin.environmentNames, name.isEmpty = false ∧
      name ∈ Builtin.keywords ∧ name ≠ "enumerate" := by decide
  obtain ⟨nonempty, isKeyword, other⟩ := facts name isEnvironment
  have growing : Growing readName := .quiet fun _ => retains_readName
  unfold beginEnvironment
  refine ((reading.runs_name isEnvironment).sat (growing engine steady)).bind ?_
  rintro result between ⟨⟨isName, moved⟩, grown⟩
  subst isName
  simp only [nonempty, Bool.false_eq_true, if_false]
  refine (moved.reading.runs_lookup isKeyword known.meaning).bind ?_
  rintro _ _ ⟨rfl, rfl⟩
  simp only [known.isEnvironment, if_true]
  have distinct : element.name ≠ "enumerate" := by
    rw [known.isNamed]
    exact other
  refine (grown.steady.runs_invokeBare gauge moved.reading known.simple distinct known.arguments
    token (by decide)).mono ?_
  intro node after drafting
  exact drafting.since steady grown moved.formulas

/-- Ending an environment closes its scope. -/
theorem Steady.runs_endEnvironment (gauge : Gauge β) {frame : Frame} {name : String}
    (steady : engine.Steady)
    (reading : Reading (frame :: frames) (braced name tokens) engine)
    (isEnvironment : name ∈ Builtin.environmentNames) {element : Element}
    (known : Builtin.IsEnvironment name element) (isOpen : OpenedBy name frame) (token : Token) :
    Runs (endEnvironment interpreter token) engine fun result after =>
      ∃ node, result = some node ∧
        Drafting gauge engine node
          { environmentEndNode name with depth := frames.length + 1 } [] frames tokens after := by
  have facts : ∀ name ∈ Builtin.environmentNames,
      name ∈ Builtin.keywords ∧ name ≠ "enumerate" := by decide
  obtain ⟨isKeyword, other⟩ := facts name isEnvironment
  have growing : Growing readName := .quiet fun _ => retains_readName
  unfold endEnvironment
  refine ((reading.runs_name isEnvironment).sat (growing engine steady)).bind ?_
  rintro result between ⟨⟨isName, moved⟩, grown⟩
  subst isName
  apply runs_get
  have isAny : between.scopes.owners.any (opensEnvironment result) = true := by
    obtain ⟨owner, owned, isNamed, opening, _⟩ := isOpen
    simp [Scopes.owners, Scopes.frames, moved.reading.inner, owned, opensEnvironment, isNamed,
      opening]
  have found : between.scopes.command? result = some (.element element) :=
    (moved.reading.command? isKeyword).trans known.meaning
  simp only [isAny, found, Bool.not_true, Bool.false_eq_true, if_false, known.isEnvironment,
    if_true]
  have closes : Runs (invokeElement interpreter element token .closing) between fun node after =>
      Drafting gauge engine node
        { environmentEndNode result with depth := frames.length + 1 } [] frames tokens after := by
    unfold invokeElement
    simp only [if_true, known.isNamed]
    refine (grown.steady.runs_closeEnvironment gauge moved.reading isOpen).bind ?_
    intro node closed drafting
    replace drafting := drafting.since steady grown moved.formulas
    rcases known.simple.hook with none | list
    · rw [none]
      exact runs_pure drafting
    · rw [list]
      refine (drafting.runs_countList other .closing).bind ?_
      intro _ after done
      exact runs_pure done
  refine closes.bind ?_
  intro node after drafting
  exact runs_pure ⟨node, rfl, drafting⟩

end Engine

end TexTree
