import TexTree.Proofs.Engine.Defining
import TexTree.Proofs.Scope.Belonging

/-!
# Environments of a user that nest

The beginning of an environment opens a node and a scope of its own, and goes on with the
code of the beginning.  The end gives no item: it goes on with the code of the end and a
marker behind it, and only the marker closes the innermost scope.

For each of these events this module says where the engine stands behind it.
-/

namespace TexTree

namespace Engine

variable {defined pending family : List Custom} {environment : Custom}
  {opened : List (NodeId × String)} {tokens : List Token} {first : Token}
  {engine between after : Engine} {name : String} {code : List Char} {rule : Definition}
  {interpreter : Interpreter} {id : NodeId}

/-- The node that an environment of a user begins with. -/
def customNode (name : String) (position : Option Position) (depth : Nat) : Node :=
  { Document.element name Level.environment .opening with
    digest := .environment, position, depth }

/-- The node that closes an environment. -/
def customEnd (name : String) (depth : Nat) : Node :=
  { Document.element name Level.environment .closing with depth }

/-- The marker that closes an environment. -/
def customMarker (name : String) : Token := .endOfList ("end:" ++ name)

/-- An environment has been opened by a node, and the given tokens are ahead in it. -/
structure Entered (defined pending : List Custom) (opened : List (NodeId × String))
    (name : String) (tokens : List Token) (id : NodeId) (engine : Engine) : Prop where
  stands : Stands defined pending ((id, name) :: opened) tokens engine
  node : ∃ position, engine.document.node id = customNode name position (opened.length + 2)

/-- A call without arguments reads nothing. -/
theorem runs_readCall (writes : rule.Writes code) (token : Token) :
    Runs (readCall rule token) engine fun arguments after => arguments = [] ∧ after = engine := by
  have takes : Runs (reading fun table input => rule.readArguments table token.text input) engine
      fun result after => result = .ok [] ∧ after = engine := by
    apply runs_modifyGet
    beta_reduce
    rw [writes.readArguments]
    exact ⟨rfl, rfl⟩
  refine takes.bind ?_
  rintro _ after ⟨rfl, rfl⟩
  exact runs_pure ⟨rfl, rfl⟩

theorem runs_createElement (name : String) (level : Level) (mode : Mode) :
    Runs (createElement name level mode) engine fun id after =>
      id = engine.document.size ∧
        after = { engine with document := (engine.document.createElement name level mode).2 } :=
  runs_modifyGet ⟨rfl, rfl⟩

namespace Stands

/-- Behind the beginning of an environment, it has its node and its scope, and its code is
ahead. -/
theorem runs_beginUserEnvironment (stands : Stands defined pending opened tokens engine)
    (writes : rule.Writes code) (name : String) (token : Token) :
    Runs (beginUserEnvironment name rule token) engine
      (Entered defined pending opened name (code.map Token.letter ++ tokens)) := by
  have letters : (code.map Token.letter).map Token.bare = code.map Token.letter := by
    rw [List.map_map]
    rfl
  have isInner : ((some (customOwner engine.document.size name)).any
      fun opener => opener.level == Level.document) = false := by
    simp [customOwner, Level.environment, Level.document]
  unfold beginUserEnvironment
  refine (runs_createElement name Level.environment .opening).bind ?_
  rintro _ _ ⟨rfl, rfl⟩
  apply runs_modify_bind
  apply runs_modify_bind
  apply runs_modify_bind
  refine (runs_readCall writes token).bind ?_
  rintro _ _ ⟨rfl, rfl⟩
  apply runs_modify_bind
  apply runs_modify_bind
  apply runs_modify_bind
  refine runs_pure ⟨⟨?_, ?_, ?_, stands.buffer⟩, token.position, ?_⟩
  · change (engine.input.pushTokens (rule.apply [])).ahead .initial = _
    rw [Input.ahead_pushTokens, stands.ahead, writes.replaced, List.map_append, letters]
  · change (engine.scopes.push (some (customOwner engine.document.size name)) []).inner = _
    rw [Scopes.push, isInner]
    simp only [Bool.false_eq_true, if_false, stands.categories, stands.inner]
    rfl
  · change (engine.scopes.push (some (customOwner engine.document.size name)) []).base.Knows
      defined pending
    rw [Scopes.push, isInner]
    exact stands.base
  · have isDepth : (engine.scopes.push (some (customOwner engine.document.size name)) []).depth =
        opened.length + 2 := by
      rw [Scopes.push, isInner]
      simp [Scopes.depth, stands.inner]
    have inside : engine.document.size <
        (engine.document.createElement name Level.environment .opening).2.size := by
      simp [Document.createElement]
    dsimp only
    rw [Document.node_modify_self _ (by simpa using inside),
      Document.node_modify_self _ (by simpa using inside), Document.node_modify_self _ inside]
    simp only [Document.createElement, Document.node_create_self]
    rw [← isDepth]
    rfl

/-- An environment of the family begins. -/
theorem runs_beginEnvironment
    (stands : Stands defined pending opened (braced environment.name tokens) engine)
    (known : environment ∈ defined) (token : Token) :
    Runs (beginEnvironment interpreter token) engine
      (Entered defined pending opened environment.name
        (environment.opening.map Token.letter ++ tokens)) := by
  have nonempty : environment.name.isEmpty = false := by
    have isWord := Text.ne_nil_of_isControlWord environment.isName
    simpa using isWord
  unfold beginEnvironment
  refine (stands.runs_readName environment.isName).bind ?_
  rintro _ between ⟨rfl, goesOn⟩
  replace stands := stands.goOn goesOn
  simp only [nonempty, Bool.false_eq_true, if_false]
  obtain ⟨opening, closing, bound, opens, _⟩ := stands.base.defined environment known
  rw [← stands.command?] at bound
  refine (Engine.runs_lookup bound).bind ?_
  rintro _ _ ⟨rfl, rfl⟩
  exact stands.runs_beginUserEnvironment opens environment.name _

/-- The innermost environment is the one that its name finds. -/
theorem find?_owners (stands : Stands defined pending ((id, name) :: opened) tokens engine) :
    engine.scopes.owners.find? (opensEnvironment name) = some (customOwner id name) := by
  simp [Scopes.owners, Scopes.frames, stands.inner, customFrame, customOwner, plainFrame,
    Frame.fresh, opensEnvironment]

/-- The innermost environment ends: its code is ahead, with the marker behind it. -/
theorem runs_endEnvironment
    (stands : Stands defined pending ((id, environment.name) :: opened)
      (braced environment.name tokens) engine)
    (known : environment ∈ defined) (token : Token) :
    Runs (endEnvironment interpreter token) engine fun result after =>
      result = none ∧
        Stands defined pending ((id, environment.name) :: opened)
          (environment.closing.map Token.letter ++ customMarker environment.name :: tokens)
          after := by
  unfold endEnvironment
  refine (stands.runs_readName environment.isName).bind ?_
  rintro _ between ⟨rfl, goesOn⟩
  replace stands := stands.goOn goesOn
  have isOpen : between.scopes.owners.any (opensEnvironment environment.name) = true :=
    List.any_eq_true.mpr ⟨_, List.mem_of_find?_eq_some stands.find?_owners,
      List.find?_some stands.find?_owners⟩
  obtain ⟨opening, closing, bound, _, closes⟩ := stands.base.defined environment known
  rw [← stands.command?] at bound
  apply runs_get
  simp only [isOpen, bound, Bool.not_true, Bool.false_eq_true, if_false]
  have same : (closing.apply [] ++ [customMarker environment.name]).map Token.bare =
      (environment.closing.map Token.letter ++ [customMarker environment.name]).map Token.bare := by
    rw [List.map_append, List.map_append, closes.replaced, List.map_map]
    rfl
  have ends : Runs (endUserEnvironment environment.name (some closing)) between fun _ after =>
      GoesOn between (environment.closing.map Token.letter ++
        customMarker environment.name :: tokens) after := by
    unfold endUserEnvironment
    simp only [pure_bind]
    refine (stands.runs_pushTokens same).mono ?_
    intro _ after goesOn
    rw [List.append_assoc] at goesOn
    exact goesOn
  refine ends.bind ?_
  intro _ after goesOn
  exact runs_pure ⟨rfl, stands.goOn goesOn⟩

/-- The marker closes the innermost environment. -/
theorem runs_closeEnvironment
    (stands : Stands defined pending ((id, name) :: opened) tokens engine) :
    Runs (closeEnvironment name) engine fun node after =>
      Stands defined pending opened tokens after ∧
        after.document.node node = customEnd name (opened.length + 1) := by
  have popped : engine.scopes.popOwner { node := none, name, mode := .closing } none =
      { engine.scopes with
        inner := opened.map fun entry => customFrame entry.1 entry.2 } := by
    rw [Scopes.popOwner, stands.inner]
    simp [Scopes.closeFrames, Scopes.isParent, Scopes.endsAt, customFrame, customOwner, plainFrame,
      Frame.fresh]
  unfold closeEnvironment
  apply runs_get
  rw [stands.find?_owners]
  refine (runs_createElement name Level.environment .closing).bind ?_
  rintro _ _ ⟨rfl, rfl⟩
  apply runs_modify_bind
  apply runs_modify_bind
  apply runs_modify_bind
  rw [popped]
  refine runs_pure ⟨⟨stands.ahead, rfl, stands.base, stands.buffer⟩, ?_⟩
  have inside : engine.document.size <
      (engine.document.createElement name Level.environment .closing).2.size := by
    simp [Document.createElement]
  dsimp only
  rw [Document.node_modify_self _ inside]
  simp only [Document.createElement, Document.node_create_self, Scopes.depth, List.length_map]
  rfl

end Stands

/-- A node that is noted to come from a token stays as it is otherwise. -/
theorem Entered.noted (entered : Entered defined pending opened name tokens id engine)
    (token : Token) :
    Entered defined pending opened name tokens id (engine.noted id token) := by
  obtain ⟨stands, position, isNode⟩ := entered
  have inside : id < engine.document.size := by
    by_contra outside
    rw [Document.node_of_size_le (Nat.not_lt.mp outside)] at isNode
    cases congrArg Node.mode isNode
  refine ⟨⟨stands.ahead, stands.inner, stands.base, stands.buffer⟩, position <|> token.position, ?_⟩
  rw [Engine.noted, Document.node_modify_self _ inside, isNode]
  rfl

namespace Stands

/-! ## Items -/

/-- Nothing has changed that matters for reading. -/
theorem same (stands : Stands defined pending opened tokens engine)
    (input : after.input = engine.input) (scopes : after.scopes = engine.scopes)
    (buffer : after.buffer = engine.buffer) : Stands defined pending opened tokens after := by
  refine ⟨?_, ?_, ?_, buffer.trans stands.buffer⟩
  · rw [input]
    exact stands.ahead
  · rw [scopes]
    exact stands.inner
  · rw [scopes]
    exact stands.base

/-- The next item is that of the next token. -/
theorem runs_nextItemWithin (stands : Stands defined pending opened (first :: tokens) engine)
    {post : Item → Engine → Prop}
    (gives : ∀ token between, token.bare = first.bare →
      Stands defined pending opened tokens between →
      Runs (tokenItem interpreter token) between fun item after =>
        ∃ given, item = some given ∧ post given after)
    (steps : Nat) :
    Runs (nextItemWithin interpreter (steps + 1)) engine fun item after =>
      ∃ given, item = some given ∧ post given after := by
  unfold nextItemWithin
  apply runs_get
  rw [stands.buffer]
  refine stands.runs_nextToken.bind ?_
  rintro _ between ⟨⟨token, rfl, same⟩, goesOn⟩
  refine (gives token between same (stands.goOn goesOn)).bind ?_
  rintro _ after ⟨given, rfl, holds⟩
  exact runs_pure ⟨given, rfl, holds⟩

/-- At the end of the input there is no item. -/
theorem runs_nextItemWithin_nil (stands : Stands defined pending opened [] engine) (steps : Nat) :
    Runs (nextItemWithin interpreter (steps + 1)) engine fun item _ => item = none := by
  unfold nextItemWithin
  apply runs_get
  rw [stands.buffer]
  refine stands.runs_nextToken_nil.bind ?_
  rintro _ between rfl
  exact runs_pure rfl

/-- A character stands for itself. -/
theorem runs_character (stands : Stands defined pending opened (first :: tokens) engine)
    (plain : first.Plain) (steps : Nat) :
    Runs (nextItemWithin interpreter (steps + 1)) engine fun item after =>
      ∃ given, item = some given ∧
        ∃ token, given = .token token ∧ token.bare = first.bare ∧
          Stands defined pending opened tokens after := by
  refine stands.runs_nextItemWithin ?_ steps
  intro token between same standsBetween
  have isCategory : token.category = first.category := by
    have equal := congrArg Token.category same
    simpa using equal
  unfold tokenItem
  rw [isCategory]
  rcases plain.category with isKind | isKind | isKind
  all_goals
    rw [isKind]
    exact runs_modify_bind (runs_pure ⟨_, rfl, token, rfl, same, standsBetween.same rfl rfl rfl⟩)

/-- The beginning of an environment gives its node. -/
theorem runs_begin (idles : Idles interpreter)
    (stands : Stands defined pending opened (Input.named "begin" environment.name ++ tokens) engine)
    (known : environment ∈ defined) (steps : Nat) :
    Runs (nextItemWithin interpreter (steps + 1)) engine fun item after =>
      ∃ given, item = some given ∧
        ∃ id, given = .node id ∧
          Entered defined pending opened environment.name
            (environment.opening.map Token.letter ++ tokens) id after := by
  have split : Input.named "begin" environment.name ++ tokens =
      .control "begin" :: braced environment.name tokens := by
    simp [Input.named, braced]
  rw [split] at stands
  refine stands.runs_nextItemWithin ?_ steps
  intro token between same standsBetween
  have bound := standsBetween.meaning (by decide) Builtin.meaning?_begin
  have executes : Runs (execute interpreter token
      (.primitive "begin" (.construction .beginEnvironment))) between fun item after =>
      ∃ node, item = some (.node node) ∧
        Entered defined pending opened environment.name
          (environment.opening.map Token.letter ++ tokens) node after := by
    have constructs : Runs (construct interpreter token .beginEnvironment) between
        fun result after => ∃ node, result = some node ∧
          Entered defined pending opened environment.name
            (environment.opening.map Token.letter ++ tokens) node after := by
      apply Runs.map
      refine (standsBetween.runs_beginEnvironment known token).mono ?_
      exact fun node after entered => ⟨node, rfl, entered⟩
    refine constructs.bind ?_
    rintro _ after ⟨node, rfl, entered⟩
    exact runs_pure ⟨node, rfl, entered⟩
  have isName : token.commandName? = some "begin" := commandName?_of_bare same
  refine (runs_tokenItem idles isName bound rfl executes).mono ?_
  rintro _ _ ⟨node, after, rfl, entered, rfl⟩
  exact ⟨_, rfl, node, rfl, entered.noted token⟩

/-- The end of an environment gives no item. -/
theorem skips_end (idles : Idles interpreter)
    (stands : Stands defined pending ((id, environment.name) :: opened)
      (Input.named "end" environment.name ++ tokens) engine)
    (known : environment ∈ defined) :
    ∃ after, Advances (nextItemWithin interpreter) 1 engine after ∧
      Stands defined pending ((id, environment.name) :: opened)
        (environment.closing.map Token.letter ++ customMarker environment.name :: tokens)
        after := by
  have split : Input.named "end" environment.name ++ tokens =
      .control "end" :: braced environment.name tokens := by
    simp [Input.named, braced]
  rw [split] at stands
  have bound := stands.meaning (by decide) Builtin.meaning?_end
  refine stands.skips idles bound rfl ?_
  intro token between standsBetween
  refine (standsBetween.runs_endEnvironment known token).bind ?_
  rintro _ after ⟨rfl, standsAfter⟩
  exact runs_pure ⟨rfl, standsAfter⟩

/-- The marker gives the node at the end, and the scope is closed. -/
theorem runs_marker
    (stands : Stands defined pending ((id, name) :: opened) (customMarker name :: tokens) engine)
    (steps : Nat) :
    Runs (nextItemWithin interpreter (steps + 1)) engine fun item after =>
      ∃ given, item = some given ∧
        ∃ node, given = .node node ∧ Stands defined pending opened tokens after ∧
          after.document.node node = customEnd name (opened.length + 1) := by
  refine stands.runs_nextItemWithin ?_ steps
  intro token between same standsBetween
  have isMarker : token.category = .endOfList := congrArg Token.category same
  have isText : token.text = "end:" ++ name := congrArg Token.text same
  have cleared : Stands defined pending ((id, name) :: opened) tokens
      { between with expansions := 0 } := standsBetween.same rfl rfl rfl
  unfold tokenItem
  rw [isMarker]
  simp only [isText, Text.afterMark?_eq_some_iff.mpr rfl]
  apply runs_modify_bind
  refine cleared.runs_closeEnvironment.bind ?_
  rintro node after ⟨standsAfter, isNode⟩
  exact runs_pure ⟨_, rfl, node, rfl, standsAfter, isNode⟩

end Stands

end Engine

end TexTree
