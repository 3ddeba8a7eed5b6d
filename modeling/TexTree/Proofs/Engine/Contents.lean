import TexTree.Proofs.Engine.Entries

/-!
# The contents of commands

A command with an argument opens a scope, interprets the argument, and closes the scope
again.  The environments and formulas that begin in the argument take up what is behind them,
and stop at the marker behind the argument, where the command stops as well.  Its own scope is
then closed, together with all that was opened in the argument.

That this finds the scope of the command and no other one is because the nodes of the argument
are made later than that of the command (`Engine.Inside`).
-/

namespace TexTree

namespace Document

theorem size_le_appendText (document : Document) (parent : NodeId) (content : String) :
    document.size ≤ (document.appendText parent content).size := by
  rcases document.appendText_cases parent content with ⟨last, start, _, _, equal⟩ | ⟨_, equal⟩
  · rw [equal, size_modify]
  · rw [equal, size_attach, size_create]
    exact Nat.le_succ _

end Document

namespace Builtin

theorem meaning?_enclosing {name : String} (known : name ∈ fontNames) :
    meaning? name = some (.element (enclosing name)) := by
  refine meaning?_element ?_ rfl
  simp only [fontNames, List.mem_cons, List.not_mem_nil, or_false] at known
  rcases known with rfl | rfl | rfl | rfl | rfl | rfl | rfl <;> simp [elements]

end Builtin

/-- An environment takes up one that begins inside of it. -/
theorem Node.Opens.reaction {node next : Node} {depth : Nat} (opens : next.Opens depth)
    (digest : node.digest = .environment) (level : node.level = Level.environment)
    (inside : node.depth ≤ depth) : node.reaction next = .takeUp := by
  have notOutside : ¬depth < node.depth := Nat.not_lt.mpr inside
  simp [Node.reaction, Node.isOutside, digest, level, opens.level, opens.mode, opens.depth,
    notOutside, Level.environment, Level.par]

namespace Engine

variable {engine after : Engine} {interpreter : Interpreter} {book book' : Bookkeeping}
  {tokens tokens' : List Token} {id : NodeId} {name : String} {outer : List OpenScope}
  {content : List Event.Entry}

/-- What is open depends neither on the document nor on what has been expanded. -/
theorem Records.setDocument (records : Records book tokens engine) (document : Document)
    (expansions : Nat) : Records book tokens { engine with document, expansions } where
  encloses := records.encloses.change records.encloses.ahead records.encloses.inner
    records.encloses.known rfl rfl
  formulas := records.formulas
  environments := records.environments
  listDepth := records.listDepth

/-- Reading on does not change what is open. -/
theorem Records.reads (records : Records book tokens engine) {rest : Input}
    (left : rest.ahead .initial = tokens') :
    Records book tokens' { engine with input := rest } where
  encloses := records.encloses.reads left
  formulas := records.formulas
  environments := records.environments
  listDepth := records.listDepth

/-- The argument of a command is being interpreted.  Closing the scope of the command closes
what was opened in the argument, and leaves what is open outside. -/
structure Inside (id : NodeId) (name : String) (outer : List OpenScope) (book : Bookkeeping)
    (tokens : List Token) (engine : Engine) : Prop where
  records : Records book tokens engine
  created : id < engine.document.size
  leaves : List.Forall₂ Frame.Encloses outer
    (Scopes.closeFrames (.ofCommand id name) none engine.scopes.inner)

namespace Inside

theorem setDocument (inside : Inside id name outer book tokens engine) {document : Document}
    (size : engine.document.size ≤ document.size) :
    Inside id name outer book tokens { engine with document } where
  records := inside.records.setDocument document engine.expansions
  created := Nat.lt_of_lt_of_le inside.created size
  leaves := inside.leaves

theorem reads (inside : Inside id name outer book tokens engine) {rest : Input}
    (left : rest.ahead .initial = tokens') :
    Inside id name outer book tokens' { engine with input := rest } where
  records := inside.records.reads left
  created := inside.created
  leaves := inside.leaves

/-- What may stand in an argument has no braces of its own, but those around names. -/
theorem braces_entries (allowed : ∀ entry ∈ content, entry.Allowed) :
    Input.braces 0 (content.flatMap Event.Entry.tokens) = some 0 := by
  induction content with
  | nil => rfl
  | cons entry rest ih =>
      have first : Input.braces 0 entry.tokens = some 0 := by
        have isAllowed := allowed entry List.mem_cons_self
        cases entry with
        | character token =>
            rcases isAllowed with isKind | isKind | isKind <;>
              simp [Event.Entry.tokens, Input.braces, isKind]
        | openEnvironment name =>
            have opens : Token.beginGroup.category = .beginGroup := rfl
            have isName : Input.braces 1 (nameTokens name) = some 1 :=
              Input.braces_add (braces_nameTokens name) 1
            have same : Event.Entry.tokens (.openEnvironment name) =
                [.control "begin", .beginGroup] ++ (nameTokens name ++ [.endGroup]) := rfl
            have before : Input.braces 0 [.control "begin", .beginGroup] = some 1 := rfl
            rw [same, Input.braces_append before, Input.braces_append isName]
            rfl
        | openFormula kind => cases kind <;> rfl
      rw [List.flatMap_cons, Input.braces_append first]
      exact ih fun other member => allowed other (List.mem_cons_of_mem _ member)

/-- The frame of another node is closed with the command, and the search goes on outside. -/
theorem closeFrames_cons (known : name ∈ Builtin.fontNames) {owner : FrameOwner}
    {locals : List (String × Command)} (other : owner.node ≠ some id) (frames : List Frame) :
    Scopes.closeFrames (.ofCommand id name) none (plainFrame (some owner) locals :: frames) =
      Scopes.closeFrames (.ofCommand id name) none frames := by
  have noMark : ∀ name ∈ Builtin.fontNames, Text.afterMark? "end" name = none := by decide
  have notParent : Scopes.isParent (.ofCommand id name) none (plainFrame (some owner) locals) =
      false := by
    cases isNode : owner.node <;> simp [Scopes.isParent, plainFrame, Frame.fresh, isNode]
  have notEnd : Scopes.endsAt (.ofCommand id name) (plainFrame (some owner) locals) = false := by
    simp [Scopes.endsAt, plainFrame, Frame.fresh, FrameOwner.ofCommand, noMark name known, other]
  rw [Scopes.closeFrames, notParent, notEnd]
  simp

/-- What begins in the argument belongs to a node that is new. -/
theorem offered (inside : Inside id name outer book tokens engine)
    (known : name ∈ Builtin.fontNames) {item : Item} (offered : Offered engine item after)
    (records : Records book' tokens' after) : Inside id name outer book' tokens' after := by
  cases offered with
  | character _ document scopes =>
      exact ⟨records, document ▸ inside.created, scopes ▸ inside.leaves⟩
  | opening other _ size scopes =>
      refine ⟨records, size ▸ Nat.lt_succ_of_lt inside.created, ?_⟩
      have newer : some engine.document.size ≠ some id := by
        simpa using Nat.ne_of_gt inside.created
      rw [scopes, inside.records.encloses.scopesInside_eq, if_neg other]
      simp only
      rw [closeFrames_cons known newer]
      exact inside.leaves

/-- The marker behind the argument is an item. -/
theorem runs_marker (inside : Inside id name outer book (.endOfList "arg" :: tokens) engine)
    (steps : Nat) :
    Runs (nextItemWithin interpreter (steps + 1)) engine fun result after =>
      ∃ item, result = some item ∧ ∃ token : Token, item = .token token ∧
        token.bare = .endOfList "arg" ∧ Inside id name outer book tokens after := by
  refine inside.records.encloses.runs_nextItem ?_ steps
  intro token rest same reads
  have text : token.text = "arg" := congrArg Token.text same
  have noEnd : Text.afterMark? "end:" "arg" = none := by decide
  unfold tokenItem
  rw [category_of_bare same, text]
  simp only [Token.endOfList, noEnd]
  exact runs_pure ⟨_, rfl, token, rfl, same, inside.reads reads.ahead⟩

/-- An environment stops at the marker, and leaves it where it is. -/
theorem runs_digestWithin_marker
    (inside : Inside id name outer book (.endOfList "arg" :: tokens) engine) (fuel steps : Nat)
    (parent : NodeId) (node : Node) (hasBreak : Bool) :
    Runs (digestWithin (Engine.interpreter (fuel + 2)) parent node (steps + 1) hasBreak) engine
      fun result after => result = hasBreak ∧
        Inside id name outer book (.endOfList "arg" :: tokens) after := by
  rw [digestWithin]
  refine (inside.runs_marker fuel).bind ?_
  rintro _ after ⟨item, rfl, token, rfl, same, behind⟩
  have isMarker : token.category = .endOfList := (category_of_bare same).trans rfl
  simp only [isMarker, if_true]
  refine runs_modify_bind (runs_pure ⟨rfl, behind.reads ?_⟩)
  rw [Input.ahead_putBack, same, behind.records.encloses.ahead]

end Inside

/-- A node of an environment is digested by taking up what belongs to it. -/
theorem runs_digest_environment {post : Engine → Prop} {fuel : Nat}
    (digest : (engine.document.node id).digest = .environment)
    (runs : Runs (digestWithin (Engine.interpreter fuel) id (engine.document.node id) fuel false)
      engine fun hasBreak after => hasBreak = false ∧ post after) :
    Runs ((Engine.interpreter (fuel + 1)).run (.digest id)) engine fun _ after => post after := by
  change Runs (Engine.digest (Engine.interpreter fuel) id) engine _
  unfold Engine.digest
  apply runs_nodeOf
  simp only [digest, reduceCtorEq, if_false]
  refine runs.bind ?_
  rintro _ after ⟨rfl, holds⟩
  exact runs_pure holds

namespace Inside

/-- An environment that begins in the argument takes up everything to its end.  The induction
is on what is left of the argument: what is behind a beginning is taken up by the node of it. -/
theorem runs_digestWithin (known : name ∈ Builtin.fontNames)
    (allowed : ∀ entry ∈ content, entry.Allowed) {fuel steps : Nat} {parent : NodeId}
    {node : Node} (enough : content.length ≤ fuel) (enoughSteps : content.length ≤ steps)
    (digest : node.digest = .environment) (level : node.level = Level.environment)
    (depth : node.depth ≤ engine.scopes.depth)
    (inside : Inside id name outer book
      (content.flatMap Event.Entry.tokens ++ .endOfList "arg" :: tokens) engine) :
    Runs (digestWithin (Engine.interpreter (fuel + 2)) parent node (steps + 1) false) engine
      fun result after => result = false ∧ Inside id name outer
        (content.foldl Bookkeeping.enter book) (.endOfList "arg" :: tokens) after := by
  induction content generalizing fuel steps parent node book engine with
  | nil => exact inside.runs_digestWithin_marker fuel steps parent node false
  | cons entry rest ih =>
      rw [List.length_cons] at enough enoughSteps
      obtain ⟨less, rfl⟩ : ∃ less, fuel = less + 1 := Nat.exists_eq_add_one.mpr (by omega)
      obtain ⟨fewer, rfl⟩ : ∃ fewer, steps = fewer + 1 := Nat.exists_eq_add_one.mpr (by omega)
      have allowedRest : ∀ entry ∈ rest, entry.Allowed :=
        fun other member => allowed other (List.mem_cons_of_mem _ member)
      have records := inside.records
      rw [List.flatMap_cons, List.append_assoc] at records
      rw [digestWithin]
      refine (records.runs_entry (idles_interpreter (less + 1)) (allowed entry List.mem_cons_self)
        (less + 1)).bind ?_
      rintro _ after ⟨item, rfl, isOffered, recorded⟩
      have goesOn := inside.offered known isOffered recorded
      cases isOffered with
      | character isCharacter _ scopes =>
          simp only [isCharacter, if_false]
          apply runs_get
          have deep : node.depth ≤ after.scopes.depth := scopes ▸ depth
          split
          · apply runs_modify_bind
            exact ih allowedRest (by omega) (by omega) digest level deep
              (goesOn.setDocument (Document.size_le_appendText _ _ _))
          · exact ih allowedRest (by omega) (by omega) digest level deep goesOn
      | opening other opens size scopes =>
          have deeper : engine.scopes.depth ≤ after.scopes.depth := by
            rw [scopes, records.encloses.scopesInside_eq, if_neg other]
            simp [Scopes.depth]
          apply runs_nodeOf
          rw [opens.reaction digest level (Nat.le_trans depth deeper)]
          have digests := runs_digest_environment opens.digest
            (ih allowedRest (Nat.le_of_lt_succ enough) (by omega) opens.digest opens.level
              (Nat.le_of_eq opens.depth) goesOn)
          refine digests.bind ?_
          intro _ last taken
          apply runs_modify_bind
          exact (taken.setDocument (Nat.le_of_eq (by simp))).runs_digestWithin_marker
            (less + 1) fewer parent node false

/-- The argument is put into a fragment. -/
theorem runs_digestUntilWithin (known : name ∈ Builtin.fontNames)
    (allowed : ∀ entry ∈ content, entry.Allowed) {fuel steps : Nat} (parent : NodeId)
    (enough : content.length ≤ fuel) (enoughSteps : content.length ≤ steps)
    (inside : Inside id name outer book
      (content.flatMap Event.Entry.tokens ++ .endOfList "arg" :: tokens) engine) :
    Runs (digestUntilWithin (Engine.interpreter (fuel + 2)) parent "arg" (steps + 1)) engine
      fun _ after => Inside id name outer (content.foldl Bookkeeping.enter book) tokens after := by
  have runsMarker {book : Bookkeeping} {engine : Engine} (steps : Nat)
      (atMarker : Inside id name outer book (.endOfList "arg" :: tokens) engine) :
      Runs (digestUntilWithin (Engine.interpreter (fuel + 2)) parent "arg" (steps + 1)) engine
        fun _ after => Inside id name outer book tokens after := by
    rw [digestUntilWithin]
    refine (atMarker.runs_marker fuel).bind ?_
    rintro _ after ⟨item, rfl, token, rfl, same, behind⟩
    have isMarker : token.category = .endOfList := (category_of_bare same).trans rfl
    have text : token.text = "arg" := congrArg Token.text same
    simp only [isMarker, text, if_true, beq_self_eq_true]
    exact runs_pure behind
  induction content generalizing steps book engine with
  | nil => exact runsMarker steps inside
  | cons entry rest ih =>
      rw [List.length_cons] at enough enoughSteps
      obtain ⟨fewer, rfl⟩ : ∃ fewer, steps = fewer + 1 := Nat.exists_eq_add_one.mpr (by omega)
      have allowedRest : ∀ entry ∈ rest, entry.Allowed :=
        fun other member => allowed other (List.mem_cons_of_mem _ member)
      have records := inside.records
      rw [List.flatMap_cons, List.append_assoc] at records
      rw [digestUntilWithin]
      refine (records.runs_entry (idles_interpreter fuel) (allowed entry List.mem_cons_self)
        fuel).bind ?_
      rintro _ after ⟨item, rfl, isOffered, recorded⟩
      have goesOn := inside.offered known isOffered recorded
      cases isOffered with
      | character isCharacter =>
          simp only [isCharacter, if_false]
          apply runs_modify_bind
          exact ih allowedRest (by omega) (by omega)
            (goesOn.setDocument (Document.size_le_appendText _ _ _))
      | opening _ opens =>
          obtain ⟨less, rfl⟩ : ∃ less, fuel = less + 1 := Nat.exists_eq_add_one.mpr (by omega)
          apply runs_nodeOf
          have keeps : (!((after.document.node engine.document.size).mode == .closing ||
              (after.document.node engine.document.size).closesGroup)) = true := by
            simp [opens.mode, opens.notGroup]
          simp only [keeps, if_true]
          have digests := runs_digest_environment opens.digest
            (goesOn.runs_digestWithin known allowedRest (Nat.le_of_lt_succ enough) (by omega)
              opens.digest opens.level (Nat.le_of_eq opens.depth))
          refine digests.bind ?_
          intro _ last taken
          apply runs_modify_bind
          exact runsMarker fewer (taken.setDocument (Nat.le_of_eq (by simp)))

/-- The argument is interpreted. -/
theorem runs_toFragment (known : name ∈ Builtin.fontNames)
    (allowed : ∀ entry ∈ content, entry.Allowed) {fuel : Nat} (enough : content.length ≤ fuel)
    (inside : Inside id name outer book tokens engine) {read : List Token}
    (same : read.map Token.bare = content.flatMap Event.Entry.tokens) :
    Runs (toFragment (Engine.interpreter (fuel + 2)) read) engine fun _ after =>
      Inside id name outer (content.foldl Bookkeeping.enter book) tokens after := by
  have creates : Runs createFragment engine fun _ after =>
      Inside id name outer book tokens after :=
    runs_modifyGet (inside.setDocument (by simp [Document.createFragment]))
  unfold toFragment
  refine creates.bind ?_
  intro fragment created ready
  have marked : Inside id name outer book
      (content.flatMap Event.Entry.tokens ++ .endOfList "arg" :: tokens)
      { created with input := created.input.pushTokens (read ++ [.endOfList "arg"]) } := by
    refine ready.reads ?_
    rw [Input.ahead_pushTokens, List.map_append, same, ready.records.encloses.ahead,
      List.append_assoc]
    rfl
  have noBuffer : created.buffer = [] := ready.records.encloses.buffer
  apply runs_modify_bind
  apply runs_get
  apply runs_modify_bind
  simp only [noBuffer]
  have interprets := (noBuffer ▸ marked).runs_digestUntilWithin known allowed fragment enough
    (Nat.le_succ_of_le enough)
  refine Runs.bind (Runs.ensuring (interprets.mono ?_)) fun _ _ holds => runs_pure holds
  intro _ after holds
  have unchanged : { after with buffer := [] } = after := by
    rw [← holds.records.encloses.buffer]
  rw [unchanged]
  exact holds

/-- The argument of the command becomes its content. -/
theorem runs_readElementArguments (known : name ∈ Builtin.fontNames)
    (allowed : ∀ entry ∈ content, entry.Allowed) {fuel : Nat} (enough : content.length ≤ fuel)
    (inside : Inside id name outer book
      (.beginGroup :: (content.flatMap Event.Entry.tokens ++ .endGroup :: tokens)) engine) :
    Runs (readElementArguments (Engine.interpreter (fuel + 2)) (Builtin.enclosing name) id) engine
      fun _ after => Inside id name outer (content.foldl Bookkeeping.enter book) tokens after := by
  have balanced : Input.braces 0 (content.flatMap Event.Entry.tokens) = some 0 :=
    braces_entries allowed
  obtain ⟨read, rest, found, same, left⟩ :=
    Input.argument_of_ahead inside.records.encloses.ahead rfl rfl balanced
  have raw : Runs (reading fun table input => input.argument table) engine fun result after =>
      result = .ok (some (read, true)) ∧ after = { engine with input := rest } := by
    refine runs_modifyGet ?_
    dsimp only
    rw [inside.records.encloses.categories, found]
    exact ⟨rfl, rfl⟩
  have reads : Runs readArgument engine fun result after =>
      result = some (read, true) ∧ after = { engine with input := rest } := by
    refine raw.bind ?_
    rintro _ _ ⟨rfl, rfl⟩
    exact runs_pure ⟨rfl, rfl⟩
  have argument : Runs (readElementArgument (Engine.interpreter (fuel + 2))
      (Builtin.enclosing name) id true .content) engine fun result after =>
        result = ("", false) ∧
          Inside id name outer (content.foldl Bookkeeping.enter book) tokens after := by
    unfold readElementArgument
    refine reads.bind ?_
    rintro _ _ ⟨rfl, rfl⟩
    refine ((inside.reads left).runs_toFragment known allowed enough same).bind ?_
    intro fragment between interpreted
    apply runs_modify_bind
    refine runs_modify_bind (runs_pure ⟨rfl, ?_⟩)
    exact interpreted.setDocument (by simp)
  have arguments : Runs (readElementArgumentsFrom (Engine.interpreter (fuel + 2))
      (Builtin.enclosing name) id true (Builtin.enclosing name).arguments) engine
        fun result after => result = ("", false) ∧
          Inside id name outer (content.foldl Bookkeeping.enter book) tokens after := by
    unfold readElementArgumentsFrom
    refine argument.bind ?_
    rintro _ between ⟨rfl, interpreted⟩
    exact runs_pure ⟨rfl, interpreted⟩
  unfold readElementArguments
  refine arguments.bind ?_
  rintro _ between ⟨rfl, interpreted⟩
  exact runs_modify (interpreted.setDocument (by simp))

/-- The end of the command leaves what is open outside. -/
theorem finish (inside : Inside id name outer book tokens engine)
    (known : ∀ enclosed ∈ outer, enclosed.Known) :
    Records { book with opened := outer } tokens
      { engine with scopes := engine.scopes.popOwner (.ofCommand id name) none } where
  encloses := inside.records.encloses.change inside.records.encloses.ahead inside.leaves known
    rfl rfl
  formulas := inside.records.formulas
  environments := inside.records.environments
  listDepth := inside.records.listDepth

end Inside

/-- The scope of a command is open around its argument. -/
theorem Records.inside (records : Records book tokens engine) (known : name ∈ Builtin.fontNames)
    {document : Document} (size : engine.document.size < document.size) :
    Inside engine.document.size name book.opened
      { book with opened := .command engine.document.size name :: book.opened } tokens
      { engine with
        document
        scopes := engine.scopes.push (some (.ofCommand engine.document.size name)) [] } := by
  have notDocument : (FrameOwner.ofCommand engine.document.size name).level ≠ Level.document := by
    simp [FrameOwner.ofCommand, Level.command, Level.document]
  have pushed : engine.scopes.push (some (.ofCommand engine.document.size name)) [] =
      { engine.scopes with
        inner := plainFrame (some (.ofCommand engine.document.size name)) [] ::
          engine.scopes.inner } := by
    rw [Scopes.push_of_inner notDocument, records.encloses.categories]
    rfl
  have closed : Scopes.closeFrames (.ofCommand engine.document.size name) none
      (plainFrame (some (.ofCommand engine.document.size name)) [] :: engine.scopes.inner) =
        engine.scopes.inner := by
    simp [Scopes.closeFrames, Scopes.isParent, Scopes.endsAt, plainFrame, Frame.fresh,
      FrameOwner.ofCommand]
  rw [pushed]
  refine ⟨⟨?_, records.formulas, records.environments, records.listDepth⟩, size, ?_⟩
  · refine records.encloses.change records.encloses.ahead (.cons rfl records.encloses.inner) ?_
      rfl rfl
    exact List.forall_mem_cons.mpr ⟨known, records.encloses.known⟩
  · simp only [closed]
    exact records.encloses.inner

/-- A command opens a scope, interprets its argument, and closes the scope. -/
theorem Records.runs_invokeEnclosing (known : name ∈ Builtin.fontNames)
    (allowed : ∀ entry ∈ content, entry.Allowed) {fuel : Nat} (enough : content.length ≤ fuel)
    (records : Records book
      (.beginGroup :: (content.flatMap Event.Entry.tokens ++ .endGroup :: tokens)) engine)
    (token : Token) :
    Runs (invokeElement (Engine.interpreter (fuel + 2)) (Builtin.enclosing name) token .plain)
      engine fun _ after => Records (book.record (.command name content)) tokens after := by
  unfold invokeElement
  refine (runs_createElement _ _ _).bind ?_
  rintro _ _ ⟨rfl, rfl⟩
  apply runs_modify_bind
  simp only [reduceCtorEq, if_false, Builtin.enclosing, List.forIn_nil, pure_bind]
  apply runs_modify_bind
  refine Runs.bind ((records.inside known ?_).runs_readElementArguments known allowed enough) ?_
  · simp [Document.createElement]
  intro _ between interpreted
  have finished := interpreted.finish records.encloses.known
  rw [Bookkeeping.foldl_enter_opened] at finished
  apply runs_modify_bind
  exact runs_modify_bind (runs_pure (finished.setDocument _ _))

/-- A command with an argument is an item, and is recorded. -/
theorem Records.runs_command (known : name ∈ Builtin.fontNames)
    (allowed : ∀ entry ∈ content, entry.Allowed) {fuel : Nat} (enough : content.length ≤ fuel)
    (records : Records book ((Event.command name content).tokens ++ tokens) engine)
    (steps : Nat) :
    Runs (nextItemWithin (Engine.interpreter (fuel + 2)) (steps + 1)) engine fun result after =>
      ∃ item, result = some item ∧ Records (book.record (.command name content)) tokens after := by
  have isKnown : name ∈ enclosingNames :=
    List.mem_append_left _ (List.mem_append_right _ known)
  have ahead : (Event.command name content).tokens ++ tokens =
      .control name ::
        .beginGroup :: (content.flatMap Event.Entry.tokens ++ .endGroup :: tokens) := by
    simp [Event.tokens]
  rw [ahead] at records
  have named : (Token.control name).commandName? = some name := rfl
  have item : Runs (nextItemWithin (Engine.interpreter (fuel + 2)) (steps + 1)) engine
      fun result after => ∃ node, result = some (.node node) ∧ ∃ _ : Option Position,
        Records (book.record (.command name content)) tokens after := by
    refine records.encloses.runs_command (idles_interpreter (fuel + 1)) named
      ((records.encloses.command? isKnown).trans (Builtin.meaning?_enclosing known)) rfl ?_ steps
    intro token rest _ reads
    refine ((records.reads reads.ahead).runs_invokeEnclosing known allowed enough token).bind ?_
    intro node after recorded
    exact runs_pure ⟨node, rfl, recorded.setDocument _ 0⟩
  refine item.mono ?_
  rintro _ after ⟨node, rfl, _, recorded⟩
  exact ⟨_, rfl, recorded⟩

end Engine

end TexTree
