import TexTree.Proofs.Engine.Beginning
import TexTree.Proofs.Engine.Enclosing

/-!
# Inside of groups and environments

Groups, environments, formulas and commands with an argument open a scope each.  What matters
for what is read inside of them are the scopes that are open, and the tokens that are ahead
(`Engine.Encloses`): characters stand for themselves, and all names but that of an item have
the meanings that they have outside.
-/

namespace TexTree

/-- A scope that is open. -/
inductive OpenScope where
  | group
  /-- An environment, or a formula, which is one as well. -/
  | environment (name : String)
  /-- A command, while its argument is interpreted. -/
  | command (id : NodeId) (name : String)
  deriving DecidableEq

namespace OpenScope

/-- The environment that a scope belongs to. -/
def environment? : OpenScope → Option String
  | .environment name => some name
  | .group | .command _ _ => none

/-- The names that scopes may have. -/
def Known : OpenScope → Prop
  | .group => True
  | .environment name => name ∈ Builtin.enclosureNames
  | .command _ name => name ∈ Builtin.fontNames

end OpenScope

/-- The owner of the scope of a command. -/
def FrameOwner.ofCommand (id : NodeId) (name : String) : FrameOwner := { node := some id, name }

/-- A frame that an open scope is kept in. -/
def Frame.Encloses : OpenScope → Frame → Prop
  | .group, frame => frame = Engine.plainFrame none []
  | .environment name, frame => ∃ id, frame =
      Engine.plainFrame (some (Engine.ownerOf (Builtin.enclosure name) .opening id))
        (Builtin.enclosure name).locals
  | .command id name, frame => frame = Engine.plainFrame (some (.ofCommand id name)) []

namespace Frame.Encloses

variable {enclosed : OpenScope} {frame : Frame}

theorem categories (encloses : Frame.Encloses enclosed frame) : frame.categories = .initial := by
  cases enclosed with
  | group | command id name =>
      rw [show frame = _ from encloses]
      rfl
  | environment name =>
      obtain ⟨id, rfl⟩ := encloses
      rfl

theorem aliases (encloses : Frame.Encloses enclosed frame) : frame.aliases = .empty := by
  cases enclosed with
  | group | command id name =>
      rw [show frame = _ from encloses]
      rfl
  | environment name =>
      obtain ⟨id, rfl⟩ := encloses
      rfl

/-- All that is known inside, and not around, is how to begin an item. -/
theorem get? (encloses : Frame.Encloses enclosed frame) {name : String} (other : name ≠ "item") :
    frame.commands.get? name = none := by
  cases enclosed with
  | group | command id name =>
      rw [show frame = _ from encloses]
      rfl
  | environment list =>
      obtain ⟨id, rfl⟩ := encloses
      rw [Engine.plainFrame, Table.get?_ofList, Builtin.locals_enclosure]
      split
      · simp [Ne.symm other]
      · rfl

theorem isGroup (encloses : Frame.Encloses enclosed frame) :
    frame.isGroup = (enclosed == .group) := by
  cases enclosed with
  | group | command id name =>
      rw [show frame = _ from encloses]
      rfl
  | environment list =>
      obtain ⟨id, rfl⟩ := encloses
      rfl

/-- A frame belongs to the environment whose name it has. -/
theorem endsAt (encloses : Frame.Encloses enclosed frame) (known : enclosed.Known)
    {name : String} (isName : name ∈ Builtin.enclosureNames) :
    Scopes.endsAt { node := none, name, mode := .closing } frame =
      (enclosed == .environment name) := by
  have noMark : ∀ name ∈ Builtin.enclosureNames, Text.afterMark? "end" name = none := by decide
  have noCommand : ∀ name ∈ Builtin.enclosureNames, name ∉ Builtin.fontNames := by decide
  cases enclosed with
  | group =>
      rw [show frame = _ from encloses]
      rfl
  | environment other =>
      obtain ⟨id, rfl⟩ := encloses
      simp [Scopes.endsAt, Engine.plainFrame, Frame.fresh, Engine.ownerOf, noMark name isName]
  | command id other =>
      have different : other ≠ name := fun same => noCommand name isName (same ▸ known)
      rw [show frame = _ from encloses]
      simp [Scopes.endsAt, Engine.plainFrame, Frame.fresh, FrameOwner.ofCommand,
        noMark name isName, different]

end Frame.Encloses

namespace Engine

variable {engine after : Engine} {name : String}

/-- The names that matter. -/
def enclosingNames : List String :=
  ["bgroup", "egroup", "begin", "end", "par", "(", ")", "[", "]"] ++ Builtin.fontNames ++
    Builtin.enclosureNames

/-- The scopes that are open, the innermost first, and the tokens that are ahead. -/
structure Encloses (opened : List OpenScope) (tokens : List Token) (engine : Engine) :
    Prop where
  ahead : engine.input.ahead .initial = tokens
  inner : List.Forall₂ Frame.Encloses opened engine.scopes.inner
  known : ∀ enclosed ∈ opened, enclosed.Known
  base : engine.scopes.base.Standard
  owner : engine.scopes.base.owner = none
  names : ∀ name ∈ enclosingNames,
    engine.scopes.base.commands.get? name = Builtin.meaning? name
  buffer : engine.buffer = []

namespace Encloses

variable {opened : List OpenScope} {tokens : List Token} {first : Token}
  {interpreter : Interpreter}

theorem categories (encloses : Encloses opened tokens engine) :
    engine.scopes.categories = .initial := by
  have inner := encloses.inner
  rw [Scopes.categories, Scopes.top]
  generalize engine.scopes.inner = frames at inner
  cases inner with
  | nil => exact encloses.base.categories
  | cons fits _ => exact fits.categories

theorem alias? (encloses : Encloses opened tokens engine) (name : String) :
    engine.scopes.alias? name = none := by
  have base := encloses.base.aliases name
  have inner := encloses.inner
  rw [Scopes.alias?, Scopes.frames]
  generalize engine.scopes.inner = frames at inner
  clear encloses
  induction inner with
  | nil => simp [Scopes.aliasIn, base]
  | cons fits _ ih => simp [Scopes.aliasIn, fits.aliases, ih]

/-- All names but one have the meanings inside that they have outside. -/
theorem command?_of_ne_item (encloses : Encloses opened tokens engine) {name : String}
    (other : name ≠ "item") :
    engine.scopes.command? name = engine.scopes.base.commands.get? name := by
  have noAlias := encloses.base.aliases name
  have inner := encloses.inner
  rw [Scopes.command?, Scopes.frames]
  generalize engine.scopes.inner = frames at inner
  clear encloses
  induction inner with
  | nil =>
      cases found : engine.scopes.base.commands.get? name with
      | some command => simp [Scopes.commandIn, found]
      | none => simp [Scopes.commandIn, found, Table.contains, noAlias]
  | cons fits _ ih => simp [Scopes.commandIn, fits.get? other, fits.aliases, Table.contains, ih]

/-- The names that matter have their built-in meanings. -/
theorem command? (encloses : Encloses opened tokens engine) {name : String}
    (isKnown : name ∈ enclosingNames) : engine.scopes.command? name = Builtin.meaning? name := by
  have other : name ≠ "item" := by
    rintro rfl
    revert isKnown
    decide
  rw [encloses.command?_of_ne_item other]
  exact encloses.names name isKnown

/-- Each scope that is open lies one deeper than the one around it. -/
theorem depth (encloses : Encloses opened tokens engine) :
    engine.scopes.depth = opened.length + 1 := by
  rw [Scopes.depth, encloses.inner.length_eq]

/-- The outermost frame always stays. -/
theorem change (encloses : Encloses opened tokens engine) {opened' : List OpenScope}
    {tokens' : List Token} (ahead : after.input.ahead .initial = tokens')
    (inner : List.Forall₂ Frame.Encloses opened' after.scopes.inner)
    (known : ∀ enclosed ∈ opened', enclosed.Known)
    (sameBase : after.scopes.base = engine.scopes.base)
    (sameBuffer : after.buffer = engine.buffer) : Encloses opened' tokens' after where
  ahead := ahead
  inner := inner
  known := known
  base := sameBase ▸ encloses.base
  owner := sameBase ▸ encloses.owner
  names := sameBase ▸ encloses.names
  buffer := sameBuffer.trans encloses.buffer

/-- Reading on does not change what is open. -/
theorem reads (encloses : Encloses opened tokens engine) {rest : Input} {behind : List Token}
    (left : rest.ahead .initial = behind) :
    Encloses opened behind { engine with input := rest } :=
  encloses.change left encloses.inner encloses.known rfl rfl

/-- The next token is read. -/
theorem runs_nextToken (encloses : Encloses opened (first :: tokens) engine) :
    Runs nextToken engine fun result after => ∃ token rest, result = some token ∧
      token.bare = first ∧ after = { engine with input := rest } ∧
        rest.ahead .initial = tokens := by
  obtain ⟨token, rest, found, same, left⟩ := Input.next_of_ahead encloses.ahead
  have reads : Runs nextRaw engine fun result after =>
      result = some token ∧ after = { engine with input := rest } := by
    refine runs_modifyGet ?_
    dsimp only
    rw [encloses.categories, found]
    exact ⟨rfl, rfl⟩
  unfold nextToken
  refine reads.bind ?_
  rintro _ _ ⟨rfl, rfl⟩
  dsimp only
  split
  · apply runs_get
    rw [(encloses.reads left).alias?]
    exact runs_pure ⟨token, rest, rfl, same, rfl, left⟩
  · exact runs_pure ⟨token, rest, rfl, same, rfl, left⟩

/-- At the end of the input there is no item. -/
theorem runs_nextItem_nil (encloses : Encloses opened [] engine) (steps : Nat) :
    Runs (nextItemWithin interpreter (steps + 1)) engine fun item after =>
      item = none ∧ after = { engine with input := .empty } := by
  have reads : Runs nextToken engine fun result after =>
      result = none ∧ after = { engine with input := .empty } := by
    have raw : Runs nextRaw engine fun result after =>
        result = none ∧ after = { engine with input := .empty } := by
      refine runs_modifyGet ?_
      dsimp only
      rw [encloses.categories, Input.next_of_ahead_nil encloses.ahead]
      exact ⟨rfl, rfl⟩
    unfold nextToken
    refine raw.bind ?_
    rintro _ _ ⟨rfl, rfl⟩
    exact runs_pure ⟨rfl, rfl⟩
  rw [nextItemWithin]
  apply runs_get
  split
  · next isBuffer =>
      rw [encloses.buffer] at isBuffer
      cases isBuffer
  · refine reads.bind ?_
    rintro _ _ ⟨rfl, rfl⟩
    exact runs_pure ⟨rfl, rfl⟩

/-- The next item is that of the next token. -/
theorem runs_nextItem (encloses : Encloses opened (first :: tokens) engine)
    {post : Item → Engine → Prop}
    (gives : ∀ token rest, token.bare = first →
      Encloses opened tokens { engine with input := rest } →
      Runs (tokenItem interpreter token) { engine with input := rest } fun result after =>
        ∃ item, result = some item ∧ post item after) (steps : Nat) :
    Runs (nextItemWithin interpreter (steps + 1)) engine fun result after =>
      ∃ item, result = some item ∧ post item after := by
  rw [nextItemWithin]
  apply runs_get
  rw [encloses.buffer]
  refine encloses.runs_nextToken.bind ?_
  rintro _ _ ⟨token, rest, rfl, same, rfl, left⟩
  refine (gives token rest same (encloses.reads left)).bind ?_
  rintro _ after ⟨item, rfl, holds⟩
  exact runs_pure ⟨item, rfl, holds⟩

end Encloses

/-- The engine has been changed, and has read on. -/
structure Comes (changed : Engine) (opened : List OpenScope) (tokens : List Token)
    (after : Engine) : Prop where
  changes : after = { changed with input := after.input, expansions := 0 }
  encloses : Encloses opened tokens after

namespace Encloses

variable {opened : List OpenScope} {tokens : List Token} {first : Token}
  {interpreter : Interpreter}

/-- A character stands for itself. -/
theorem runs_character {character : Token}
    (kind : character.category = .letter ∨ character.category = .other ∨
      character.category = .space)
    (encloses : Encloses opened (character :: tokens) engine) (steps : Nat) :
    Runs (nextItemWithin interpreter (steps + 1)) engine fun result after =>
      ∃ item, result = some item ∧
        (∃ token : Token, item = .token token ∧ token.bare = character) ∧
          Comes engine opened tokens after := by
  refine encloses.runs_nextItem ?_ steps
  intro token rest same reads
  have item : Runs (tokenItem interpreter token) { engine with input := rest } fun result after =>
      result = some (.token token) ∧
        after = { engine with input := rest, expansions := 0 } := by
    unfold tokenItem
    rcases kind with isKind | isKind | isKind
    all_goals
      rw [category_of_bare same, isKind]
      exact runs_modify_bind (runs_pure ⟨rfl, rfl⟩)
  refine item.mono ?_
  rintro _ _ ⟨rfl, rfl⟩
  exact ⟨_, rfl, ⟨token, rfl, same⟩, rfl, reads.change reads.ahead reads.inner reads.known rfl rfl⟩

/-- The name of an environment is read. -/
theorem runs_readName (encloses : Encloses opened (braced name tokens) engine)
    (isName : name ∈ Builtin.enclosureNames) :
    Runs readName engine fun result after =>
      result = name ∧ ∃ rest, after = { engine with input := rest } ∧
        rest.ahead .initial = tokens := by
  have trimmed : ∀ name ∈ Builtin.enclosureNames,
      Text.trim (Token.displayList (nameTokens name)) = name := by decide
  obtain ⟨rest, found, left⟩ :=
    Input.nameArgument_of_ahead encloses.ahead rfl rfl (braces_nameTokens name)
  rw [trimmed name isName] at found
  have reads : Runs (reading fun table input => input.nameArgument table) engine
      fun result after => result = .ok name ∧ after = { engine with input := rest } := by
    refine runs_modifyGet ?_
    dsimp only
    rw [encloses.categories, found]
    exact ⟨rfl, rfl⟩
  refine reads.bind ?_
  rintro _ _ ⟨rfl, rfl⟩
  exact runs_pure ⟨rfl, rest, rfl, left⟩

/-- A command that makes a node gives it as the next item. -/
theorem runs_command (idles : Idles interpreter) {command : Command}
    (encloses : Encloses opened (first :: tokens) engine) (named : first.commandName? = some name)
    (found : engine.scopes.command? name = some command) (fixed : command.isExpandable = false)
    {post : NodeId → Option Position → Engine → Prop}
    (executes : ∀ token rest, token.bare = first →
      Encloses opened tokens { engine with input := rest } →
      Runs (execute interpreter token command) { engine with input := rest } fun item after =>
        ∃ node, item = some (.node node) ∧ post node token.position (noted node token after))
    (steps : Nat) :
    Runs (nextItemWithin interpreter (steps + 1)) engine fun result after =>
      ∃ node, result = some (.node node) ∧ ∃ position, post node position after := by
  have item : Runs (nextItemWithin interpreter (steps + 1)) engine fun result after =>
      ∃ item, result = some item ∧ ∃ node, item = .node node ∧
        ∃ position, post node position after := by
    refine encloses.runs_nextItem ?_ steps
    intro token rest same reads
    have stillFound : Scopes.command? (Engine.scopes { engine with input := rest }) name =
        some command := found
    refine (runs_tokenItem idles ((commandName?_of_bare same).trans named) stillFound fixed
      (executes token rest same reads)).mono ?_
    rintro _ _ ⟨node, after, rfl, holds, rfl⟩
    exact ⟨_, rfl, node, rfl, token.position, holds⟩
  refine item.mono ?_
  rintro _ after ⟨_, rfl, node, rfl, position, holds⟩
  exact ⟨node, rfl, position, holds⟩

/-- A command that changes the engine in a way of its own, and makes the next node. -/
theorem runs_change (idles : Idles interpreter) {command : Command}
    (encloses : Encloses opened (first :: tokens) engine) (named : first.commandName? = some name)
    (found : engine.scopes.command? name = some command) (fixed : command.isExpandable = false)
    {changed : Option Position → Engine} {behind : List OpenScope} {left : List Token}
    (executes : ∀ token rest, token.bare = first →
      Encloses opened tokens { engine with input := rest } →
      Runs (execute interpreter token command) { engine with input := rest } fun item after =>
        ∃ node, item = some (.node node) ∧ node = engine.document.size ∧
          Comes (changed token.position) behind left (noted node token after)) (steps : Nat) :
    Runs (nextItemWithin interpreter (steps + 1)) engine fun result after =>
      ∃ item, result = some item ∧ item = .node engine.document.size ∧
        ∃ position, Comes (changed position) behind left after := by
  have item : Runs (nextItemWithin interpreter (steps + 1)) engine fun result after =>
      ∃ node, result = some (.node node) ∧ ∃ position,
        node = engine.document.size ∧ Comes (changed position) behind left after :=
    encloses.runs_command idles named found fixed executes steps
  refine item.mono ?_
  rintro _ after ⟨_, rfl, position, rfl, comes⟩
  exact ⟨_, rfl, rfl, position, comes⟩

/-- A node that is made becomes an item. -/
theorem runs_making {making : TexM NodeId} {drafts : NodeId → Engine → Prop}
    (makes : Runs making engine drafts) :
    Runs (do return (← some <$> making).map Item.node) engine fun item after =>
      ∃ node, item = some (.node node) ∧ drafts node after := by
  have maps : Runs (some <$> making) engine fun result after =>
      ∃ node, result = some node ∧ drafts node after :=
    (makes.mono fun node _ drafted => ⟨node, rfl, drafted⟩).map
  refine maps.bind ?_
  rintro _ after ⟨node, rfl, drafted⟩
  exact runs_pure ⟨node, rfl, drafted⟩

/-- The innermost environment of a name that is open. -/
theorem find?_owners (encloses : Encloses opened tokens engine) (name : String) :
    (.environment name ∈ opened → ∃ id, engine.scopes.owners.find? (opensEnvironment name) =
        some (ownerOf (Builtin.enclosure name) .opening id)) ∧
      (.environment name ∉ opened →
        engine.scopes.owners.find? (opensEnvironment name) = none) := by
  have inner := encloses.inner
  have owner := encloses.owner
  rw [Scopes.owners, Scopes.frames]
  generalize engine.scopes.inner = frames at inner
  clear encloses
  induction inner with
  | nil => simp [owner]
  | @cons enclosed frame opened frames fits _ ih =>
      cases enclosed with
      | group =>
          rw [show frame = _ from fits]
          simpa [plainFrame, Frame.fresh] using ih
      | command id other =>
          rw [show frame = _ from fits]
          simpa [plainFrame, Frame.fresh, FrameOwner.ofCommand, opensEnvironment] using ih
      | environment other =>
          obtain ⟨id, rfl⟩ := fits
          rw [List.cons_append, List.filterMap_cons]
          by_cases same : other = name
          · subst same
            simp [plainFrame, Frame.fresh, opensEnvironment, ownerOf]
          · simpa [plainFrame, Frame.fresh, opensEnvironment, ownerOf, same, Ne.symm same]
              using ih

/-- Inside of the document, environments end on the level that they begin on. -/
theorem levelOf_eq (encloses : Encloses opened tokens engine) (other : name ≠ "document") :
    engine.levelOf name = Level.environment := by
  obtain ⟨inside, around⟩ := encloses.find?_owners name
  unfold levelOf
  by_cases isOpen : .environment name ∈ opened
  · obtain ⟨id, found⟩ := inside isOpen
    rw [found, Option.elim_some, ownerOf, Builtin.level_enclosure other]
  · rw [around isOpen, Option.elim_none]

/-- The scopes that belong to open environments. -/
theorem names_owners (encloses : Encloses opened tokens engine) :
    (engine.scopes.owners.filter fun owner => owner.mode == .opening).map FrameOwner.name =
      opened.filterMap OpenScope.environment? := by
  have inner := encloses.inner
  have owner := encloses.owner
  rw [Scopes.owners, Scopes.frames]
  generalize engine.scopes.inner = frames at inner
  clear encloses
  induction inner with
  | nil => simp [owner]
  | @cons enclosed frame opened frames fits _ ih =>
      cases enclosed with
      | group =>
          rw [show frame = _ from fits]
          exact ih
      | command id name =>
          rw [show frame = _ from fits]
          exact ih
      | environment name =>
          obtain ⟨id, rfl⟩ := fits
          rw [List.filterMap_cons, OpenScope.environment?]
          simp only
          rw [← ih]
          simp [plainFrame, Frame.fresh, ownerOf]

end Encloses

/-- At the beginning nothing is open, and the tokens of the text are ahead. -/
theorem encloses_fresh (settings : Settings) (files : Files) (date : Date) {text : String}
    {tokens : List Token} (ahead : (Reader.ofText text "<string>").ahead .initial = tokens) :
    Encloses [] tokens ((fresh settings files date .empty).withText text) := by
  have reading := ((begins_fresh settings files date).withText ahead).1
  have idle := (idle_fresh settings files date).withText text
  refine ⟨reading.ahead, ?_, by simp, reading.base, idle.sane.scopes.owner, ?_, idle.buffer⟩
  · rw [reading.inner]
    exact .nil
  · intro name isKnown
    have notPrinted : ∀ name ∈ enclosingNames, name.toList.take 3 ≠ "the".toList := by decide
    have notDate : ∀ name ∈ enclosingNames, ∀ part ∈ ["year", "month", "day"],
        part ≠ name := by decide
    refine BuiltIn.fresh settings files date ?_ (notDate name isKnown)
    intro counter equal
    apply notPrinted name isKnown
    rw [← equal, String.toList_append]
    rfl

end Engine

end TexTree
